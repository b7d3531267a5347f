import PaymentGateway.Monitor.Report
import PaymentGateway.System.Operation

/-!
# Where a pass of reports leaves an invoice

A run of `updateConfirmations` reports one count for each pending transfer. The reports about one
invoice take it a certain course, and where they leave it is known from the last of them of a kind:
the last that counts (it has a confirmation), the last that reaches the threshold, and the last of
all.

* `Report.Short` — a report that settles its invoice as underpaid. It leaves the transfer pending.
* `Report.Lowers` — a report that takes its transfer below the threshold, so that the rest of what
  an invoice has counted is the exact amount.
* `Course` — what is known of an invoice and its outcome after the reports about it.
* `Course.step` — a report that goes through takes the course one further.
-/

namespace PaymentGateway

open Keyed Fallible Transactional MonitorService

variable {db db' : Db}

/-! ## The last of a kind -/

section LastIs

variable {α : Type*} {p q P : α → Prop} {l : List α} {a : α}

theorem none_append (h : ∀ b ∈ l, ¬p b) (ha : ¬p a) : ∀ b ∈ l ++ [a], ¬p b := by
  intro b hb
  rcases List.mem_append.1 hb with hb | hb
  · exact h b hb
  · rwa [List.mem_singleton.1 hb]

variable [DecidablePred p] [DecidablePred q]

/-- The last element of a kind has a property. -/
def LastIs (p P : α → Prop) [DecidablePred p] (l : List α) : Prop :=
  ∃ a ∈ (l.filter p).getLast?, P a

instance [DecidablePred P] : Decidable (LastIs p P l) := by
  unfold LastIs
  infer_instance

theorem lastIs_append_of_pos (h : p a) : LastIs p P (l ++ [a]) ↔ P a := by
  simp [LastIs, List.filter_append, h]

theorem lastIs_append_of_neg (h : ¬p a) : LastIs p P (l ++ [a]) ↔ LastIs p P l := by
  simp [LastIs, List.filter_append, h]

theorem LastIs.exists_mem (h : LastIs p P l) : ∃ a ∈ l, P a := by
  obtain ⟨a, ha, hP⟩ := h
  exact ⟨a, (List.mem_filter.1 (List.mem_of_getLast? ha)).1, hP⟩

/-- The last of a kind is also the last of the elements of a narrower kind, if it is one of them. -/
theorem LastIs.narrow (h : LastIs p P l) (hP : ∀ a ∈ l, P a → q a) (hq : ∀ a ∈ l, q a → p a) :
    LastIs q P l := by
  induction l using List.reverseRecOn with
  | nil => simp [LastIs] at h
  | append_singleton l a ih =>
    by_cases hp : p a
    · have ha := (lastIs_append_of_pos hp).1 h
      exact (lastIs_append_of_pos (hP a (by simp) ha)).2 ha
    · rw [lastIs_append_of_neg hp] at h
      rw [lastIs_append_of_neg fun hqa => hp (hq a (by simp) hqa)]
      exact ih h (fun b hb => hP b (by simp [hb])) fun b hb => hq b (by simp [hb])

end LastIs

/-! ## Outcomes -/

/-- The outcome of what an invoice counts. -/
def currentOutcome (db : Db) (invoice : Invoice) : PaymentOutcome :=
  outcomeFor invoice (totalAmount (countedTransfers db invoice))

theorem currentOutcome_congr {invoice invoice' : Invoice} (htransfers : db'.transfers = db.transfers)
    (hterms : invoice'.terms = invoice.terms) :
    currentOutcome db' invoice' = currentOutcome db invoice := by
  unfold currentOutcome
  rw [countedTransfers_congr htransfers hterms, outcomeFor_congr hterms]

/-- What counts has an outcome. -/
theorem currentOutcome_ne_none {invoice : Invoice} {t : TokenTransfer}
    (h : t ∈ countedTransfers db invoice) :
    ∃ target, statusForOutcome (currentOutcome db invoice) = some target := by
  unfold currentOutcome outcomeFor outcomeOf
  rw [if_neg (totalAmount_pos h).ne']
  split_ifs <;> exact ⟨_, rfl⟩

theorem statusForOutcome_eq_underpaid {outcome : PaymentOutcome} :
    statusForOutcome outcome = some .underpaid ↔ outcome = .underpaid := by
  cases outcome <;> simp [statusForOutcome]

theorem statusForOutcome_eq_paid {outcome : PaymentOutcome} :
    statusForOutcome outcome = some .paid ↔ outcome = .exact := by
  cases outcome <;> simp [statusForOutcome]

/-- A report below the threshold takes from what counts, or leaves it. -/
theorem totalAmount_reported_le {key : TransferKey} {n : Nat} {invoice : Invoice}
    (hn : n < invoice.requiredConfirmations) :
    totalAmount (countedTransfers (db.reported key n) invoice) ≤
      totalAmount (countedTransfers db invoice) := by
  have hcons : ∀ t l, totalAmount (t :: l) = t.amount + totalAmount l := fun t l => by
    simp [totalAmount]
  unfold countedTransfers confirmedTransfers
  show totalAmount (((db.transfers.rows.map fun t => if t.key = key then Db.withConfirmations n t
    else t).filter _).filter _) ≤ _
  rw [List.filter_filter, List.filter_filter]
  induction db.transfers.rows with
  | nil => exact le_rfl
  | cons t rows ih =>
    have hpositive := t.amount_positive
    rw [List.map_cons]
    by_cases hkey : t.key = key
    · have hbelow : ¬n ≥ invoice.requiredConfirmations := by omega
      rw [if_pos hkey, List.filter_cons_of_neg (by simp [Db.withConfirmations, hbelow])]
      rw [List.filter_cons]
      split_ifs
      · rw [hcons]
        omega
      · exact ih
    · rw [if_neg hkey, List.filter_cons, List.filter_cons]
      split_ifs
      · rw [hcons, hcons]
        omega
      · exact ih

/-- What was short stays short below the threshold, while something still counts. -/
theorem underpaid_reported {key : TransferKey} {n : Nat} {invoice : Invoice} {t : TokenTransfer}
    (hn : n < invoice.requiredConfirmations) (hshort : currentOutcome db invoice = .underpaid)
    (ht : t ∈ countedTransfers (db.reported key n) invoice) :
    currentOutcome (db.reported key n) invoice = .underpaid := by
  have hle : totalAmount (countedTransfers (db.reported key n) invoice) ≤
      totalAmount (countedTransfers db invoice) := totalAmount_reported_le hn
  have hpos := totalAmount_pos ht
  unfold currentOutcome outcomeFor outcomeOf at hshort ⊢
  rw [if_neg hpos.ne']
  split_ifs at hshort with hzero hless
  rw [if_pos (lt_of_le_of_lt hle hless)]

/-! ## Reports -/

/-- A report of a pass: what it finds, the transfer it is about and the count it brings. -/
structure Report where
  before : Db
  transfer : TokenTransfer
  confirmations : Nat

namespace Report

def About (id : String) (r : Report) : Prop := r.transfer.invoiceId = some id

/-- The invoice as the report finds it. -/
def invoice (r : Report) : Option Invoice := r.transfer.invoiceId.bind r.before.invoices.find?

/-- The outcome once the count is written. -/
def outcome (r : Report) (invoice : Invoice) : PaymentOutcome :=
  currentOutcome (r.before.reported r.transfer.key r.confirmations) invoice

def Counts (r : Report) : Prop := 1 ≤ r.confirmations

def Reaches (r : Report) : Prop :=
  ∃ invoice ∈ r.invoice, invoice.requiredConfirmations ≤ r.confirmations

/-- The report settles its invoice as underpaid, which the merchant does not accept. -/
def Short (r : Report) : Prop :=
  ∃ invoice ∈ r.invoice, invoice.requiredConfirmations ≤ r.confirmations ∧
    reportedStatus invoice r.confirmations = .confirming ∧ r.outcome invoice = .underpaid ∧
    ∃ merchant ∈ r.before.merchants.find? invoice.merchantId,
      merchant.underpaymentPolicy ≠ .acceptPartial

/-- Below the threshold, what still counts for an invoice of this status is the exact amount. -/
def Lowers (status : InvoiceStatus) (r : Report) : Prop :=
  ∃ invoice ∈ r.invoice, r.confirmations < invoice.requiredConfirmations ∧
    invoice.status = status ∧ r.outcome invoice = .exact

instance (id : String) : DecidablePred (About id) := fun r => by
  unfold About
  infer_instance

instance : DecidablePred Counts := fun r => Nat.decLe 1 r.confirmations

instance : DecidablePred Reaches := fun r => by
  unfold Reaches
  infer_instance

instance : DecidablePred Short := fun r => by
  unfold Short
  infer_instance

instance (status : InvoiceStatus) : DecidablePred (Lowers status) := fun r => by
  unfold Lowers
  infer_instance

variable {r : Report} {i : Invoice}

theorem invoice_eq (hid : r.transfer.invoiceId = some i.id)
    (hfind : r.before.invoices.find? i.id = some i) : r.invoice = some i := by
  rw [invoice, hid]
  exact hfind

theorem reaches_iff (h : r.invoice = some i) :
    r.Reaches ↔ i.requiredConfirmations ≤ r.confirmations := by
  simp [Reaches, h]

theorem short_iff (h : r.invoice = some i) :
    r.Short ↔ i.requiredConfirmations ≤ r.confirmations ∧
      reportedStatus i r.confirmations = .confirming ∧ r.outcome i = .underpaid ∧
      ∃ merchant ∈ r.before.merchants.find? i.merchantId,
        merchant.underpaymentPolicy ≠ .acceptPartial := by
  simp [Short, h]

theorem lowers_iff (h : r.invoice = some i) (status : InvoiceStatus) :
    r.Lowers status ↔ r.confirmations < i.requiredConfirmations ∧ i.status = status ∧
      r.outcome i = .exact := by
  simp [Lowers, h]

theorem Reaches.counts (h : r.Reaches) : r.Counts := by
  obtain ⟨i, -, hreached⟩ := h
  exact (Nat.succ_le_of_lt i.required_confirmations_positive).trans hreached

theorem Short.reaches (h : r.Short) : r.Reaches := by
  obtain ⟨i, hi, hreached, -⟩ := h
  exact ⟨i, hi, hreached⟩

end Report

open Report

theorem filter_about_append (id : String) (l : List Report) (r : Report) :
    (l ++ [r]).filter (About id) =
      if About id r then l.filter (About id) ++ [r] else l.filter (About id) := by
  by_cases h : About id r <;> simp [List.filter_append, h]

/-- The last that counts also is the last at the threshold, if it leaves its invoice short. -/
theorem LastIs.reaching {reports : List Report} (h : LastIs Counts Short reports) :
    LastIs Reaches Short reports :=
  h.narrow (fun _ _ hs => hs.reaches) fun _ _ hr => hr.counts

/-! ## The course of an invoice -/

/-- What is known of an invoice after the reports about it. -/
structure Course (reports : List Report) (db : Db) (invoice : Invoice) : Prop where
  terms : ∀ r ∈ reports, r.before.merchants = db.merchants ∧
    ∃ i, r.invoice = some i ∧ i.terms = invoice.terms
  counted : ∀ r ∈ reports, r.Reaches →
    ∃ t ∈ countedTransfers db invoice, t.key = r.transfer.key
  /-- With a first confirmation the monitor moves the one on, and is stopped at the other. -/
  begun : invoice.status = .detected ∨ invoice.status = .complianceReviewRequired →
    ∀ r ∈ reports, ¬r.Counts
  conflict : invoice.status = .reconciliationRequired → ∀ r ∈ reports, ¬r.Reaches
  underpaid : invoice.status = .underpaid →
    (∀ r ∈ reports, ¬r.Counts) ∨ LastIs Counts Short reports
  confirming : invoice.status = .confirming →
    (∀ r ∈ reports, ¬r.Reaches) ∨ LastIs Reaches Short reports
  counting : LastIs Counts Short reports → invoice.status = .underpaid
  reaching : LastIs Reaches Short reports →
    (invoice.status = .underpaid ∨ invoice.status = .confirming) ∧
    currentOutcome db invoice = .underpaid ∧
    ∃ merchant ∈ db.merchants.find? invoice.merchantId,
      merchant.underpaymentPolicy ≠ .acceptPartial
  /-- Where an exact amount has an edge to go, only a lowered total has not taken it. -/
  exact : invoice.status = .overpaid ∨ invoice.status = .latePaymentReview →
    currentOutcome db invoice = .exact → (∃ r ∈ reports, r.Reaches) →
    LastIs (fun _ => True) (Lowers invoice.status) reports
  lowered : ∀ status, status = .overpaid ∨ status = .latePaymentReview →
    LastIs (fun _ => True) (Lowers status) reports →
    invoice.status = status ∧ currentOutcome db invoice = .exact

theorem course_nil (db : Db) (invoice : Invoice) : Course [] db invoice where
  terms _ hr := absurd hr List.not_mem_nil
  counted _ hr := absurd hr List.not_mem_nil
  begun _ _ hr := absurd hr List.not_mem_nil
  conflict _ _ hr := absurd hr List.not_mem_nil
  underpaid _ := .inl fun _ hr => absurd hr List.not_mem_nil
  confirming _ := .inl fun _ hr => absurd hr List.not_mem_nil
  counting h := by simp [LastIs] at h
  reaching h := by simp [LastIs] at h
  exact _ _ h := by simp at h
  lowered _ _ h := by simp [LastIs] at h

/-! ## What counts after a report -/

section Step

variable {transfer row : TokenTransfer} {info : ConfirmationInfo} {now : Int}
  {invoice invoice' : Invoice} {reports : List Report}

/-- A transfer whose count has reached the threshold counts after a report. -/
theorem counted_after (h : confirmTransfer transfer info now db = .ok db')
    (hterms : invoice'.terms = invoice.terms) {t : TokenTransfer} (hmem : t ∈ db.transfers)
    (hid : t.invoiceId = some invoice.id)
    (hmatched : t.matchStatus = .credited ∨ t.matchStatus = .pendingConfirmation)
    (hreached : invoice.requiredConfirmations ≤
      (reportedTransfer transfer.key info.confirmations t).confirmations) :
    ∃ t' ∈ countedTransfers db' invoice', t'.key = t.key := by
  obtain ⟨f, hf, hmap, hrows⟩ := confirmTransfer_transfers h
  have hid' : invoice'.id = invoice.id := congrArg Invoice.Terms.id hterms
  have hrequired : invoice'.requiredConfirmations = invoice.requiredConfirmations :=
    congrArg Invoice.Terms.requiredConfirmations hterms
  have hrow : (f t).invoiceId = t.invoiceId ∧
      ((f t).matchStatus = .credited ∨ (f t).matchStatus = t.matchStatus) ∧
      (f t).confirmations = (reportedTransfer transfer.key info.confirmations t).confirmations := by
    have hreported := And.intro (reportedTransfer_invoiceId transfer.key info.confirmations t)
      (reportedTransfer_matchStatus transfer.key info.confirmations t)
    rcases hrows t hmem with hsame | ⟨hcredit, -⟩
    · rw [hsame]
      exact ⟨hreported.1, .inr hreported.2, rfl⟩
    · rw [hcredit]
      exact ⟨hreported.1, .inl rfl, rfl⟩
  refine ⟨f t, mem_counted_iff.2 ⟨mem_confirmed_iff.2 ⟨?_, ?_, ?_⟩, ?_⟩, hf t⟩
  · rw [hmap]
    exact List.mem_map_of_mem hmem
  · rw [hrow.1, hid', hid]
  · rcases hrow.2.1 with hcredited | hsame
    · exact .inl hcredited
    · rwa [hsame]
  · rw [hrow.2.2, hrequired]
    exact hreached

/-- A row that a report of the invoice is about. -/
structure IsRow (db : Db) (transfer : TokenTransfer) (invoice : Invoice) (row : TokenTransfer) :
    Prop where
  found : db.transfers.find? transfer.key = some row
  id : row.invoiceId = some invoice.id
  matched : row.matchStatus = .credited ∨ row.matchStatus = .pendingConfirmation

/-- What is counted stays counted, and so is the reported transfer, from the threshold on. -/
theorem Course.counted_step (hc : Course reports db invoice)
    (h : confirmTransfer transfer info now db = .ok db') (hterms : invoice'.terms = invoice.terms)
    (hinvoice : (⟨db, transfer, info.confirmations⟩ : Report).invoice = some invoice)
    (hrow : IsRow db transfer invoice row) (hfresh : ∀ r ∈ reports, r.transfer.key ≠ transfer.key) :
    ∀ r ∈ reports ++ [⟨db, transfer, info.confirmations⟩], r.Reaches →
      ∃ t ∈ countedTransfers db' invoice', t.key = r.transfer.key := by
  intro r hr hreaches
  rcases List.mem_append.1 hr with hr | hr
  · obtain ⟨t, ht, hkey⟩ := hc.counted r hr hreaches
    obtain ⟨hconfirmed, hreached⟩ := mem_counted_iff.1 ht
    obtain ⟨hmem, hid, hmatched⟩ := mem_confirmed_iff.1 hconfirmed
    have hother : t.key ≠ transfer.key := by
      rw [hkey]
      exact hfresh r hr
    rw [← hkey]
    refine counted_after h hterms hmem hid hmatched ?_
    rw [reportedTransfer, if_neg hother]
    exact hreached
  · obtain rfl := List.mem_singleton.1 hr
    obtain ⟨hmem, hkey⟩ := Table.find?_eq_some.1 hrow.found
    rw [← hkey]
    refine counted_after h hterms hmem hrow.id hrow.matched ?_
    rw [reportedTransfer, if_pos hkey]
    exact (reaches_iff hinvoice).1 hreaches

theorem Course.terms_step (hc : Course reports db invoice) (hterms : invoice'.terms = invoice.terms)
    (hmerchants : db'.merchants = db.merchants)
    (hinvoice : (⟨db, transfer, info.confirmations⟩ : Report).invoice = some invoice) :
    ∀ r ∈ reports ++ [⟨db, transfer, info.confirmations⟩], r.before.merchants = db'.merchants ∧
      ∃ i, r.invoice = some i ∧ i.terms = invoice'.terms := by
  intro r hr
  rw [hmerchants, hterms]
  rcases List.mem_append.1 hr with hr | hr
  · exact hc.terms r hr
  · obtain rfl := List.mem_singleton.1 hr
    exact ⟨rfl, invoice, hinvoice, rfl⟩

/-- The statuses in which a report at the threshold leaves no invoice. -/
def unsettledStatuses : List InvoiceStatus :=
  [.detected, .complianceReviewRequired, .confirming, .reconciliationRequired]

/-- Without an edge to go, an invoice was settled before. -/
theorem stuck_source {n : Nat} {target : InvoiceStatus} (hn : 1 ≤ n)
    (htarget : target = .paid ∨ target = .underpaid ∨ target = .overpaid)
    (hno : canTransition (reportedStatus invoice n) target = false) :
    reportedStatus invoice n ∉ .underpaid :: unsettledStatuses ∧
      (target = .paid → reportedStatus invoice n ≠ .overpaid ∧
        reportedStatus invoice n ≠ .latePaymentReview) := by
  revert hno
  unfold reportedStatus unsettledStatuses
  generalize invoice.status = s
  rcases htarget with rfl | rfl | rfl <;> cases s <;> simp [hn] <;> decide

/-- What a report at the threshold leaves. -/
structure AfterReached (r : Report) (db' : Db) (invoice' : Invoice) : Prop where
  settled : invoice'.status ∉ unsettledStatuses
  underpaid_iff : invoice'.status = .underpaid ↔ r.Short
  short : r.Short → currentOutcome db' invoice' = .underpaid
  exact : invoice'.status = .overpaid ∨ invoice'.status = .latePaymentReview →
    currentOutcome db' invoice' ≠ .exact

theorem afterReached (hid : transfer.invoiceId = some invoice.id)
    (hfind : db.invoices.find? invoice.id = some invoice)
    (h : confirmTransfer transfer info now db = .ok db') (hrow : IsRow db transfer invoice row)
    (hreached : invoice.requiredConfirmations ≤ info.confirmations)
    (hfind' : db'.invoices.find? invoice.id = some invoice') :
    AfterReached ⟨db, transfer, info.confirmations⟩ db' invoice' := by
  obtain ⟨stored, hstored, hterms, -, hleft⟩ := confirmTransfer_invoice hid hfind h
  obtain rfl : invoice' = stored := Option.some.inj (hfind'.symm.trans hstored)
  have hinvoice : (⟨db, transfer, info.confirmations⟩ : Report).invoice = some invoice :=
    invoice_eq hid hfind
  have hshort := short_iff hinvoice
  have hn : 1 ≤ info.confirmations := (Nat.succ_le_of_lt invoice.required_confirmations_positive).trans
    hreached
  cases hleft with
  | @accepted merchant target _ hmerchant htarget _ hauto hstatus =>
    have hnot : ¬(⟨db, transfer, info.confirmations⟩ : Report).Short := by
      intro hs
      obtain ⟨-, -, houtcome, merchant', hmerchant', hpolicy⟩ := hshort.1 hs
      obtain rfl : merchant = merchant' := Option.some.inj (hmerchant.symm.trans hmerchant')
      have htarget' : statusForOutcome .underpaid = some target := houtcome ▸ htarget
      cases htarget'
      simp [autoAccept, hpolicy] at hauto
    refine ⟨?_, ?_, fun hs => absurd hs hnot, ?_⟩ <;> rw [hstatus]
    · decide
    · exact iff_of_false (by decide) hnot
    · exact fun hs => by simp at hs
  | @settled merchant target _ hmerchant htarget hallowed hauto hstatus htransfers =>
    have hsame : currentOutcome db' invoice' =
        (⟨db, transfer, info.confirmations⟩ : Report).outcome invoice :=
      currentOutcome_congr htransfers hterms
    have htarget' : statusForOutcome ((⟨db, transfer, info.confirmations⟩ : Report).outcome invoice) =
        some target := htarget
    have hkind : target = .underpaid ∨ target = .overpaid := by
      rcases statusForOutcome_settled htarget with rfl | ht
      · simp [autoAccept] at hauto
      · exact ht
    have hconfirming := unsettled_source hkind hallowed
    refine ⟨?_, ?_, fun hs => hsame.trans (hshort.1 hs).2.2.1, ?_⟩
    · rw [hstatus]
      rcases hkind with rfl | rfl <;> decide
    · rw [hstatus, hshort]
      constructor
      · rintro rfl
        refine ⟨hreached, hconfirming, statusForOutcome_eq_underpaid.1 htarget', merchant, hmerchant,
          ?_⟩
        simpa [autoAccept] using hauto
      · rintro ⟨-, -, houtcome, -⟩
        rw [houtcome] at htarget'
        exact (Option.some.inj htarget').symm
    · intro _ hexact
      rw [← hsame, hexact] at htarget'
      obtain rfl := Option.some.inj htarget'
      simp at hkind
  | unsettled hstatus htransfers hno =>
    have hsame : currentOutcome db' invoice' =
        (⟨db, transfer, info.confirmations⟩ : Report).outcome invoice :=
      currentOutcome_congr htransfers hterms
    -- The reported transfer counts, so there is an outcome, and no edge for it.
    obtain ⟨t, ht, -⟩ := counted_after h hterms (Table.find?_eq_some.1 hrow.found).1 hrow.id
      hrow.matched (by
        rw [reportedTransfer, if_pos (Table.find?_eq_some.1 hrow.found).2]
        exact hreached)
    obtain ⟨target, htarget⟩ := currentOutcome_ne_none ht
    rw [hsame] at htarget
    have hstuck := stuck_source hn (statusForOutcome_settled htarget) (hno hreached target htarget)
    rw [← hstatus] at hstuck
    have hnot : ¬(⟨db, transfer, info.confirmations⟩ : Report).Short := by
      intro hs
      have hconfirming := (hshort.1 hs).2.1
      rw [← hstatus] at hconfirming
      rw [hconfirming] at hstuck
      exact hstuck.1 (by decide)
    refine ⟨fun hs => hstuck.1 (List.mem_cons_of_mem _ hs), ?_, fun hs => absurd hs hnot, ?_⟩
    · refine iff_of_false (fun hs => ?_) hnot
      rw [hs] at hstuck
      exact hstuck.1 (by decide)
    · intro hs hexact
      rw [← hsame, hexact] at htarget
      obtain ⟨hover, hlate⟩ := hstuck.2 (Option.some.inj htarget).symm
      rcases hs with hs | hs
      · exact hover hs
      · exact hlate hs

/-- A report at the threshold decides the course by itself. -/
theorem Course.step_reached (hc : Course reports db invoice) (hid : transfer.invoiceId = some invoice.id)
    (hfind : db.invoices.find? invoice.id = some invoice)
    (h : confirmTransfer transfer info now db = .ok db') (hrow : IsRow db transfer invoice row)
    (hfresh : ∀ r ∈ reports, r.transfer.key ≠ transfer.key)
    (hreached : invoice.requiredConfirmations ≤ info.confirmations)
    (hfind' : db'.invoices.find? invoice.id = some invoice') :
    Course (reports ++ [⟨db, transfer, info.confirmations⟩]) db' invoice' := by
  obtain ⟨stored, hstored, hterms, -, -⟩ := confirmTransfer_invoice hid hfind h
  obtain rfl : invoice' = stored := Option.some.inj (hfind'.symm.trans hstored)
  have hinvoice : (⟨db, transfer, info.confirmations⟩ : Report).invoice = some invoice :=
    invoice_eq hid hfind
  have hafter := afterReached hid hfind h hrow hreached hfind'
  have hreaches := (reaches_iff hinvoice).2 hreached
  have hmerchants := confirmTransfer_merchants h
  have hmid : invoice'.merchantId = invoice.merchantId :=
    congrArg Invoice.Terms.merchantId hterms
  have hlowers : ∀ status, ¬(⟨db, transfer, info.confirmations⟩ : Report).Lowers status :=
    fun status hl => absurd ((lowers_iff hinvoice status).1 hl).1 (not_lt.2 hreached)
  refine ⟨?_, hc.counted_step h hterms hinvoice hrow hfresh, fun hs => ?_, fun hs => ?_, fun hs => ?_,
    fun hs => ?_, fun hl => ?_, fun hl => ?_, fun hs hexact => ?_, fun status _ hl => ?_⟩
  · exact hc.terms_step hterms hmerchants hinvoice
  · refine absurd ?_ hafter.settled
    rcases hs with hs | hs <;> rw [hs] <;> decide
  · refine absurd ?_ hafter.settled
    rw [hs]
    decide
  · exact .inr ((lastIs_append_of_pos hreaches.counts).2 (hafter.underpaid_iff.1 hs))
  · refine absurd ?_ hafter.settled
    rw [hs]
    decide
  · exact hafter.underpaid_iff.2 ((lastIs_append_of_pos hreaches.counts).1 hl)
  · have hs := (lastIs_append_of_pos hreaches).1 hl
    rw [hmerchants, hmid]
    exact ⟨.inl (hafter.underpaid_iff.2 hs), hafter.short hs, ((short_iff hinvoice).1 hs).2.2.2⟩
  · exact absurd hexact (hafter.exact hs)
  · exact absurd ((lastIs_append_of_pos trivial).1 hl) (hlowers status)

/-- A report that the gate lets through moves its invoice to CONFIRMING, or leaves its status where
no confirmation has been counted or there is no edge. -/
theorem reportedStatus_cases {n : Nat} (hadvanced : reportedStatus invoice n = invoice.status ∨
      isActorAllowed invoice.status .confirming .monitor = true) :
    (1 ≤ n ∧ reportedStatus invoice n = .confirming ∧
      (invoice.status = .detected ∨ invoice.status = .underpaid)) ∨
    (reportedStatus invoice n = invoice.status ∧ (n < 1 ∨
      invoice.status ∉ [.detected, .underpaid, .complianceReviewRequired])) := by
  by_cases hmoves : 1 ≤ n ∧ canTransition invoice.status .confirming = true
  · have hconfirming := reportedStatus_of_edge hmoves.1 hmoves.2
    rcases hadvanced with hsame | hallowed
    · have hloop := hmoves.2
      rw [← hsame, hconfirming] at hloop
      cases hloop
    · exact .inl ⟨hmoves.1, hconfirming, confirming_source hallowed⟩
  · rw [not_and_or, Bool.not_eq_true] at hmoves
    have hkept : n < 1 ∨ canTransition invoice.status .confirming = false :=
      hmoves.imp_left Nat.lt_of_not_le
    refine .inr ⟨reportedStatus_of_no_edge hkept, hkept.imp_right fun hno hmem => ?_⟩
    revert hno hmem
    cases invoice.status <;> decide

/-- A report below the threshold takes its invoice to CONFIRMING or leaves its status, and lowers
what the invoice counts. -/
theorem Course.step_below (hc : Course reports db invoice) (hid : transfer.invoiceId = some invoice.id)
    (hfind : db.invoices.find? invoice.id = some invoice)
    (h : confirmTransfer transfer info now db = .ok db') (hrow : IsRow db transfer invoice row)
    (hfresh : ∀ r ∈ reports, r.transfer.key ≠ transfer.key)
    (hbelow : info.confirmations < invoice.requiredConfirmations)
    (hfind' : db'.invoices.find? invoice.id = some invoice') :
    Course (reports ++ [⟨db, transfer, info.confirmations⟩]) db' invoice' := by
  obtain ⟨stored, hstored, hterms, hadvanced, hleft⟩ := confirmTransfer_invoice hid hfind h
  obtain rfl : invoice' = stored := Option.some.inj (hfind'.symm.trans hstored)
  have hinvoice : (⟨db, transfer, info.confirmations⟩ : Report).invoice = some invoice :=
    invoice_eq hid hfind
  have hmerchants := confirmTransfer_merchants h
  have hmid : invoice'.merchantId = invoice.merchantId :=
    congrArg Invoice.Terms.merchantId hterms
  have hreaches : ¬(⟨db, transfer, info.confirmations⟩ : Report).Reaches := by
    rw [reaches_iff hinvoice]
    exact not_le.2 hbelow
  have hshort : ¬(⟨db, transfer, info.confirmations⟩ : Report).Short :=
    fun hs => hreaches hs.reaches
  have hcounted := hc.counted_step h hterms hinvoice hrow hfresh
  obtain ⟨hstatus, htransfers⟩ : invoice'.status = reportedStatus invoice info.confirmations ∧
      db'.transfers = (db.reported transfer.key info.confirmations).transfers := by
    cases hleft with
    | unsettled hstatus htransfers => exact ⟨hstatus, htransfers⟩
    | settled hreached => omega
    | accepted hreached => omega
  have hsame : currentOutcome db' invoice' =
      (⟨db, transfer, info.confirmations⟩ : Report).outcome invoice :=
    currentOutcome_congr htransfers hterms
  have hcases := reportedStatus_cases hadvanced
  rw [← hstatus] at hcases
  refine ⟨hc.terms_step hterms hmerchants hinvoice, hcounted, fun hs => ?_, fun hs => ?_,
    fun hs => ?_, fun hs => ?_, fun hl => ?_, fun hl => ?_, fun hs hexact _ => ?_,
    fun status hkind hl => ?_⟩
  · rcases hcases with ⟨-, hmoved, -⟩ | ⟨hkept, hno⟩
    · rw [hmoved] at hs
      simp at hs
    · rw [hkept] at hs
      have hzero : info.confirmations < 1 := by
        refine hno.resolve_right fun hmem => hmem ?_
        rcases hs with hs | hs <;> rw [hs] <;> decide
      exact none_append (hc.begun hs) (Nat.not_le.2 hzero)
  · rcases hcases with ⟨-, hmoved, -⟩ | ⟨hkept, -⟩
    · rw [hmoved] at hs
      cases hs
    · exact none_append (hc.conflict (hkept.symm.trans hs)) hreaches
  · rcases hcases with ⟨-, hmoved, -⟩ | ⟨hkept, hno⟩
    · rw [hmoved] at hs
      cases hs
    · rw [hkept] at hs
      have hzero : info.confirmations < 1 := hno.resolve_right fun hmem => hmem (by rw [hs]; decide)
      have hcounts : ¬(⟨db, transfer, info.confirmations⟩ : Report).Counts := Nat.not_le.2 hzero
      exact (hc.underpaid hs).imp (fun hnone => none_append hnone hcounts)
        (lastIs_append_of_neg hcounts).2
  · have hbefore : (∀ r ∈ reports, ¬r.Reaches) ∨ LastIs Reaches Short reports := by
      rcases hcases with ⟨-, -, hs' | hs'⟩ | ⟨hkept, -⟩
      · exact .inl fun r hr hreached => hc.begun (.inl hs') r hr hreached.counts
      · exact (hc.underpaid hs').imp (fun hnone r hr hreached => hnone r hr hreached.counts)
          LastIs.reaching
      · exact hc.confirming (hkept.symm.trans hs)
    exact hbefore.imp (fun hnone => none_append hnone hreaches) (lastIs_append_of_neg hreaches).2
  · by_cases hcounts : (⟨db, transfer, info.confirmations⟩ : Report).Counts
    · exact absurd ((lastIs_append_of_pos hcounts).1 hl) hshort
    · have hs := hc.counting ((lastIs_append_of_neg hcounts).1 hl)
      rcases hcases with ⟨hn, -⟩ | ⟨hkept, -⟩
      · exact absurd hn hcounts
      · exact hkept.trans hs
  · have hl := (lastIs_append_of_neg hreaches).1 hl
    obtain ⟨hs, houtcome, hpolicy⟩ := hc.reaching hl
    obtain ⟨r, hr, hrshort⟩ := hl.exists_mem
    obtain ⟨t, ht, -⟩ := hcounted r (List.mem_append_left _ hr) hrshort.reaches
    rw [countedTransfers_congr htransfers hterms] at ht
    rw [hmerchants, hmid]
    refine ⟨?_, hsame.trans (underpaid_reported hbelow houtcome ht), hpolicy⟩
    rcases hcases with ⟨-, hmoved, -⟩ | ⟨hkept, -⟩
    · exact .inr hmoved
    · rwa [hkept]
  · refine (lastIs_append_of_pos trivial).2 ((lowers_iff hinvoice _).2 ⟨hbelow, ?_, hsame ▸ hexact⟩)
    rcases hcases with ⟨-, hmoved, -⟩ | ⟨hkept, -⟩
    · rw [hmoved] at hs
      simp at hs
    · exact hkept.symm
  · obtain ⟨-, hs, houtcome⟩ :=
      (lowers_iff hinvoice status).1 ((lastIs_append_of_pos trivial).1 hl)
    refine ⟨?_, hsame.trans houtcome⟩
    rcases hcases with ⟨-, -, hs'⟩ | ⟨hkept, -⟩
    · rw [hs] at hs'
      rcases hkind with rfl | rfl <;> simp at hs'
    · exact hkept.trans hs

/-- **The step lemma.** A report that goes through takes the course of its invoice one further. -/
theorem Course.step (hc : Course reports db invoice) (hid : transfer.invoiceId = some invoice.id)
    (hfind : db.invoices.find? invoice.id = some invoice)
    (h : confirmTransfer transfer info now db = .ok db') (hrow : IsRow db transfer invoice row)
    (hfresh : ∀ r ∈ reports, r.transfer.key ≠ transfer.key)
    (hfind' : db'.invoices.find? invoice.id = some invoice') :
    Course (reports ++ [⟨db, transfer, info.confirmations⟩]) db' invoice' := by
  rcases Nat.lt_or_ge info.confirmations invoice.requiredConfirmations with hbelow | hreached
  · exact hc.step_below hid hfind h hrow hfresh hbelow hfind'
  · exact hc.step_reached hid hfind h hrow hfresh hreached hfind'

end Step

/-! ## The other invoices -/

/-- A map that fixes what a filter keeps, and adds nothing to it, does not show in the result. -/
theorem filter_map_of_fixed {α : Type*} {f : α → α} {p : α → Bool} {l : List α}
    (hfixed : ∀ a ∈ l, p a = true → f a = a) (hback : ∀ a ∈ l, p (f a) = true → p a = true) :
    (l.map f).filter p = l.filter p := by
  rw [List.filter_map]
  have hsame : l.filter (p ∘ f) = l.filter p := by
    refine List.filter_congr fun a ha => ?_
    rw [Bool.eq_iff_iff]
    refine ⟨hback a ha, fun hp => ?_⟩
    rw [Function.comp_apply, hfixed a ha hp, hp]
  rw [hsame]
  refine (List.map_congr_left fun a ha => ?_).trans (List.map_id _)
  obtain ⟨ha, hp⟩ := List.mem_filter.1 ha
  exact hfixed a ha hp

/-- What an invoice that the report is not about counts, it still counts. -/
theorem countedTransfers_other {transfer : TokenTransfer} {info : ConfirmationInfo} {now : Int}
    {invoice : Invoice}
    (hrow : ∀ t ∈ db.transfers, t.key = transfer.key → t.invoiceId = transfer.invoiceId)
    (hid : transfer.invoiceId ≠ some invoice.id)
    (h : confirmTransfer transfer info now db = .ok db') :
    countedTransfers db' invoice = countedTransfers db invoice := by
  obtain ⟨f, hf, hmap, hrows⟩ := confirmTransfer_transfers h
  have hconfirmed : confirmedTransfers db' invoice.id = confirmedTransfers db invoice.id := by
    unfold confirmedTransfers
    rw [hmap, Table.rows_map]
    refine filter_map_of_fixed (fun t ht hp => ?_) fun t ht hp => ?_
    · have htid : t.invoiceId = some invoice.id := (of_decide_eq_true hp).1
      rcases hrows t ht with hsame | ⟨-, id, hid', htransfer, -⟩
      · rw [hsame]
        refine if_neg fun hkey => hid ?_
        rw [← hrow t ht hkey, htid]
      · rw [htransfer, ← hid', htid] at hid
        exact absurd rfl hid
    · have htid : (f t).invoiceId = some invoice.id := (of_decide_eq_true hp).1
      rcases hrows t ht with hsame | ⟨hcredit, id, hid', htransfer, -⟩
      · rw [hsame] at hp htid
        rw [reportedTransfer_invoiceId] at htid
        have hkey : t.key ≠ transfer.key := fun hkey => hid (by rw [← hrow t ht hkey, htid])
        rwa [reportedTransfer, if_neg hkey] at hp
      · rw [hcredit] at htid
        have hsame : t.invoiceId = some invoice.id := by
          rw [← reportedTransfer_invoiceId transfer.key info.confirmations t]
          exact htid
        rw [htransfer, ← hid', hsame] at hid
        exact absurd rfl hid
  unfold countedTransfers
  rw [hconfirmed]

theorem Course.congr {reports : List Report} {invoice : Invoice} (hc : Course reports db invoice)
    (hcounted : countedTransfers db' invoice = countedTransfers db invoice)
    (hmerchants : db'.merchants = db.merchants) : Course reports db' invoice := by
  have houtcome : currentOutcome db' invoice = currentOutcome db invoice := by
    unfold currentOutcome
    rw [hcounted]
  constructor
  · rw [hmerchants]
    exact hc.terms
  · rw [hcounted]
    exact hc.counted
  · exact hc.begun
  · exact hc.conflict
  · exact hc.underpaid
  · exact hc.confirming
  · exact hc.counting
  · rw [houtcome, hmerchants]
    exact hc.reaching
  · rw [houtcome]
    exact hc.exact
  · rw [houtcome]
    exact hc.lowered

end PaymentGateway
