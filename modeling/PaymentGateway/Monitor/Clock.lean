import PaymentGateway.Monitor.Inversion

/-!
# What a confirmation does with the clock

It writes it: when a payment was accepted, and when a transfer was credited. Nothing that it reads
afterwards has been written with it, so whether a confirmation goes through does not depend on the
time at which it runs.

**Theorem (`confirmTransfer_agree`).** The transaction of one transfer at two times fails with the
same error, or succeeds with databases that are `Parallel`: they differ in what rows of invoices
say besides their terms, and rows of transfers besides their keys.
-/

namespace PaymentGateway

open Keyed Fallible

namespace Db

/-- Invoices with the same terms and transfers with the same keys, and the same of all else that
a settlement reads once its target is known. -/
structure Parallel (a b : Db) : Prop where
  beside : b = a.beside b
  terms : ∀ id, (b.invoices.find? id).map (·.terms) = (a.invoices.find? id).map (·.terms)
  found : ∀ k, (b.transfers.find? k).isSome = (a.transfers.find? k).isSome

theorem Parallel.refl (a : Db) : Parallel a a := ⟨rfl, fun _ => rfl, fun _ => rfl⟩

variable {a b : Db}

theorem updateInvoice_agree (db : Db) (id : String) (writer : TransitionActor)
    {data data' : InvoiceData} (hstatus : data'.status = data.status) :
    Agree Parallel (db.updateInvoice id writer data) (db.updateInvoice id writer data') := by
  unfold updateInvoice
  cases db.invoices.find? id with
  | none => exact rfl
  | some invoice =>
    dsimp only
    rw [hstatus]
    refine ⟨rfl, fun id' => ?_, fun _ => rfl⟩
    dsimp only
    rw [Table.map_find?_modify (Invoice.terms_update · data'),
      Table.map_find?_modify (Invoice.terms_update · data)]

theorem createEvent_agree (h : Parallel a b) (event : PaymentEvent) :
    Agree Parallel (a.createEvent event) (b.createEvent event) := by
  rw [h.beside, createEvent_beside]
  refine agree_map fun x hx => ?_
  obtain ⟨hfree, rfl⟩ := createEvent_eq_ok hx
  exact ⟨rfl, h.terms, h.found⟩

theorem recordEvent_agree (h : Parallel a b) (id type : String) (source target : InvoiceStatus)
    (actor : String) (payload : List (String × String)) :
    Agree Parallel (a.recordEvent id type source target actor payload)
      (b.recordEvent id type source target actor payload) := by
  have hcount : b.countEvents id = a.countEvents id := by
    rw [h.beside]
    rfl
  unfold recordEvent
  simp only [hcount]
  exact createEvent_agree h _

theorem emitWebhook_agree (h : Parallel a b) (id : String) (status : InvoiceStatus) :
    Agree Parallel (a.emitWebhook id status) (b.emitWebhook id status) := by
  have hterms := h.terms id
  unfold emitWebhook findInvoice
  cases webhookEventForStatus status with
  | none => exact h
  | some type =>
    dsimp only
    cases ha : a.invoices.find? id with
    | none =>
      rw [ha, Option.map_none, Option.map_eq_none_iff] at hterms
      rw [hterms]
      exact rfl
    | some invoice =>
      rw [ha, Option.map_some, Option.map_eq_some_iff] at hterms
      obtain ⟨invoice', hb, hsame⟩ := hterms
      have hmerchant : invoice'.merchantId = invoice.merchantId :=
        congrArg Invoice.Terms.merchantId hsame
      have horder : invoice'.orderId = invoice.orderId := congrArg Invoice.Terms.orderId hsame
      rw [hb]
      show Parallel (a.upsertWebhook _) (b.upsertWebhook _)
      rw [hmerchant, horder, h.beside, upsertWebhook_beside]
      obtain ⟨webhooks, -, hupsert⟩ :=
        upsertWebhook_eq a type invoice.merchantId id invoice.orderId
      rw [hupsert]
      exact ⟨rfl, h.terms, h.found⟩

theorem applyTransition_agree (db : Db) (id : String) (source target : InvoiceStatus)
    (writer : TransitionActor) {data data' : InvoiceData} (event : EventData) :
    Agree Parallel (db.applyTransition id source target writer data event)
      (db.applyTransition id source target writer data' event) := by
  refine agree_bind fun _ _ => ?_
  have hupdate : Agree Parallel (db.updateInvoice id writer { data with status := some target })
      (db.updateInvoice id writer { data' with status := some target }) :=
    updateInvoice_agree db id writer rfl
  refine hupdate.bind fun x y _ _ hxy => ?_
  exact recordEvent_agree hxy _ _ _ _ _ _

theorem markCredited_agree (h : Parallel a b) (key : TransferKey) (now later : Int) :
    Agree Parallel (a.markCredited key now) (b.markCredited key later) := by
  have hfound := h.found key
  unfold markCredited
  cases ha : a.transfers.find? key with
  | none =>
    rw [ha, Option.isSome_none, Option.isSome_eq_false_iff, Option.isNone_iff_eq_none] at hfound
    rw [hfound]
    exact rfl
  | some t =>
    rw [ha, Option.isSome_some, Option.isSome_iff_exists] at hfound
    obtain ⟨t', hb⟩ := hfound
    rw [hb]
    refine ⟨?_, h.terms, fun k => ?_⟩
    · conv_lhs => rw [h.beside]
      rfl
    · dsimp only
      rw [Table.find?_modify_isSome, Table.find?_modify_isSome, h.found]

end Db

namespace MonitorService

open Db

variable {a b : Db}

theorem creditTransfer_agree (h : Parallel a b) (invoice : Invoice) (merchant : Merchant)
    (now later : Int) (t : TokenTransfer) :
    Agree Parallel (creditTransfer invoice merchant now a t)
      (creditTransfer invoice merchant later b t) := by
  have hpost : Agree (fun r r' : Db × PostingResult => Parallel r.1 r'.1 ∧ r'.2 = r.2)
      (postPaymentCredit a (creditParams invoice merchant t))
      (postPaymentCredit b (creditParams invoice merchant t)) := by
    rw [h.beside, postPaymentCredit_beside]
    refine agree_map fun r hr => ?_
    obtain ⟨x, result⟩ := r
    refine ⟨?_, rfl⟩
    rcases postPaymentCredit_eq_ok hr with ⟨-, rfl, -⟩ | ⟨accounts, entries, hb, hk, rfl, -, -⟩
    · exact ⟨rfl, h.terms, h.found⟩
    · exact ⟨rfl, h.terms, h.found⟩
  refine hpost.bind fun r r' _ _ hr => ?_
  obtain ⟨x, result⟩ := r
  obtain ⟨y, result'⟩ := r'
  obtain ⟨hxy, rfl⟩ := hr
  dsimp only
  split
  · exact hxy
  · exact markCredited_agree hxy _ _ _

theorem acceptPayment_agree (db : Db) (invoice : Invoice) (target : InvoiceStatus)
    (now later : Int) :
    Agree Parallel (acceptPayment db invoice target now) (acceptPayment db invoice target later) := by
  unfold acceptPayment
  split
  · refine (applyTransition_agree db _ _ _ _ _).bind fun x y _ _ hxy => ?_
    exact emitWebhook_agree hxy _ _
  · exact updateInvoice_agree db _ _ rfl

theorem settleInvoice_agree (db : Db) (invoice : Invoice) (merchant : Merchant)
    (target : InvoiceStatus) (now later : Int) :
    Agree Parallel (settleInvoice db invoice merchant target now)
      (settleInvoice db invoice merchant target later) := by
  unfold settleInvoice
  refine agree_bind fun x _ => ?_
  refine agree_bind fun y _ => ?_
  split
  · exact Parallel.refl y
  · refine (acceptPayment_agree y invoice target now later).bind fun z z' _ _ hz => ?_
    exact agree_foldlM (fun t w w' hw => creditTransfer_agree hw invoice merchant now later t) _ hz

theorem finalizeInvoice_agree (db : Db) (invoiceId : String) (now later : Int) :
    Agree Parallel (finalizeInvoice db invoiceId now) (finalizeInvoice db invoiceId later) := by
  unfold finalizeInvoice
  refine agree_bind fun invoice _ => ?_
  split_ifs
  · exact Parallel.refl db
  · exact Parallel.refl db
  · refine agree_bind fun merchant _ => ?_
    refine agree_bind fun evaluation _ => ?_
    split
    · exact Parallel.refl db
    · split
      · exact Parallel.refl db
      · exact settleInvoice_agree db _ _ _ _ _

/-- **The clock does not decide whether a confirmation goes through.** -/
theorem confirmTransfer_agree (transfer : TokenTransfer) (info : ConfirmationInfo)
    (now later : Int) (db : Db) :
    Agree Parallel (confirmTransfer transfer info now db)
      (confirmTransfer transfer info later db) := by
  unfold confirmTransfer
  refine agree_bind fun x _ => ?_
  cases transfer.invoiceId with
  | none => exact Parallel.refl x
  | some id =>
    dsimp only
    refine agree_bind fun invoice _ => ?_
    refine agree_bind fun y _ => ?_
    refine agree_bind fun required _ => ?_
    refine agree_bind fun confirmed _ => ?_
    split
    · exact finalizeInvoice_agree y _ _ _
    · exact Parallel.refl y

end MonitorService

end PaymentGateway
