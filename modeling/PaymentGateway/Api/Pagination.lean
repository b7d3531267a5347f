import PaymentGateway.Api.Common
import PaymentGateway.Database.Schema
import PaymentGateway.Lib.Paging
import PaymentGateway.Lib.Table
import PaymentGateway.Shared.Error
import PaymentGateway.Shared.Network

/-!
# Cursor pagination

A list endpoint fetches one row more than its limit, past the cursor, in the order of the ids, and
hands out the id of the last row it keeps as the next cursor. The invoices are listed in ascending
order and the audit log newest first.

**Theorem (`lists_enumerate`).** A request is refused exactly for a limit that is not an integer
between 1 and 100, or a status that is not one of an invoice. A client whose filters are not refused
and that follows the cursors from the first page gets, on a table that stays as it is, every
matching row exactly once and in order. While rows come and go between its requests it gets no row
twice, and every row that matched at each of its requests and that it has passed.

The database compares ids by its collation, which is any injective reading of them in a linear
order; newest first is the dual order. No id is empty, so the cursor, which counts as none when it
is empty, never is. Each request then is a page (`listPage_isPage`), and following the cursors is a
walk over them (`follow_walk`).
-/

namespace PaymentGateway

open Fallible Keyed Paging

variable {ρ α : Type} {κ : Type*} [LinearOrder κ]

/-! ## Limits and pages -/

def defaultPageLimit : Int := 20

def maxPageLimit : Int := 100

structure LimitOptions where
  default : Option Int := none
  max : Option Int := none
  deriving DecidableEq, Repr

/-- The limit of a request. `readInteger` is the integer that `Number` reads in a text, if it reads
one. -/
def parseLimit (readInteger : String → Option Int) (raw : Option String)
    (options : LimitOptions := {}) : Except Error Int :=
  let max := options.max.getD maxPageLimit
  match raw with
  | none => .ok (options.default.getD defaultPageLimit)
  | some text =>
    match (readInteger text).filter fun parsed => 1 ≤ parsed ∧ parsed ≤ max with
    | none => .error (.app 400 ("limit must be an integer between 1 and " ++ toString max))
    | some parsed => .ok parsed

structure CursorPage (ρ : Type) where
  items : List ρ
  nextCursor : Option String

/-- Split a result of `limit + 1` rows into a page and the next cursor. -/
def paginate (id : ρ → String) (rows : List ρ) (limit : Nat) : CursorPage ρ :=
  let items := rows.take limit
  ⟨items, if limit < rows.length then items.getLast?.map id else none⟩

/-! ## List endpoints -/

/-- A table as a request finds it. `newId` makes no id empty. -/
structure Snapshot (ρ : Type) (id : ρ → String) extends Table ρ id where
  id_ne_empty : ∀ row ∈ rows, id row ≠ ""

/-- The rows that meet the conditions, the first so many in the order of their ids. -/
def findMany {id : ρ → String} (collate : String ↪ κ) (conditions : ρ → Bool) (take : Nat)
    (table : Snapshot ρ id) : List ρ :=
  (sorted (fun row => collate (id row)) (table.rows.filter conditions)).take take

/-- The condition that a cursor puts on an id. An empty cursor counts as none. -/
def beyondCursor (collate : String ↪ κ) (cursor : Option String) (id : String) : Bool :=
  match cursor.filter (· ≠ "") with
  | none => true
  | some cursor => decide (collate cursor < collate id)

/-- What the list endpoints share. -/
def listPage {id : ρ → String} (collate : String ↪ κ) (readInteger : String → Option Int)
    (limit : Option String) (conditions : Except Error (ρ → Bool)) (respond : ρ → α)
    (table : Snapshot ρ id) (cursor : Option String) : Except Error (CursorPage α) := do
  let limit ← parseLimit readInteger limit
  let conditions ← conditions
  let rows := findMany collate (fun row => conditions row && beyondCursor collate cursor (id row))
    (limit.toNat + 1) table
  let page := paginate id rows limit.toNat
  return ⟨page.items.map respond, page.nextCursor⟩

/-! ## A client -/

/-- The requests of a client that follows the cursors, one for each table it meets. -/
def follow {id : ρ → String} (request : Snapshot ρ id → Option String → Except Error (CursorPage α)) :
    Paging.Position String → List (Snapshot ρ id) → Except Error (List α × Paging.Position String)
  | position, [] => .ok ([], position)
  | .finished, _ :: _ => .ok ([], .finished)
  | position, table :: tables => do
    let page ← request table position.cursor
    let (items, last) ← follow request (.ofNext page.nextCursor) tables
    return (page.items ++ items, last)

/-- What a client of the endpoint gets, for the rows that match. -/
structure Enumerates {id : ρ → String} (collate : String ↪ κ) (matching : ρ → Bool)
    (respond : ρ → α) (request : Snapshot ρ id → Option String → Except Error (CursorPage α)) :
    Prop where
  /-- On one table, everything that matches, once and in order, and then the end. -/
  unchanged : ∀ table n, table.rows.length < n → follow request .start (List.replicate n table) =
    .ok ((sorted (fun row => collate (id row)) (table.rows.filter matching)).map respond, .finished)
  /-- On a table that changes, rows that matched, in order and without repetition; and each that
  matched every time and has been passed. -/
  changing : ∀ tables, ∃ rows last, follow request .start tables = .ok (rows.map respond, last) ∧
    Increasing (fun row => collate (id row)) rows ∧
    (∀ row ∈ rows, matching row = true ∧ ∃ table ∈ tables, row ∈ table.rows) ∧
    ∀ i, (last.map collate).Passed (collate i) →
      (∀ table ∈ tables, ∃ row ∈ table.rows, matching row = true ∧ id row = i) →
      ∃ row ∈ rows, id row = i

/-! ## Invoices -/

namespace InvoicesListService

structure Filters where
  status : Option String
  cursor : Option String
  limit : Option String
  deriving DecidableEq, Repr

def statuses : List InvoiceStatus :=
  [.created, .pending, .detected, .confirming, .paid, .underpaid, .overpaid, .expired, .cancelled,
    .failed, .refunded, .complianceReviewRequired, .latePaymentReview, .reconciliationRequired]

/-- The rows that the filters ask for. Prisma refuses a status that the enum does not have. -/
def conditions (toUpperCase : String → String) (merchantId : String) (status : Option String) :
    Except Error (Invoice → Bool) :=
  match status.filter (· ≠ "") with
  | none => .ok fun invoice => decide (invoice.merchantId = merchantId)
  | some status =>
    match statuses.find? fun s => s.name = toUpperCase status with
    | none => .error (.checkViolation "InvoiceStatus")
    | some s => .ok fun invoice => decide (invoice.merchantId = merchantId ∧ invoice.status = s)

/-- In ascending order. What upper case makes of letters outside ASCII is left open. -/
def list (collate : String ↪ κ) (readInteger : String → Option Int)
    (toUpperCase : String → String) (toInvoiceResponse : Invoice → α)
    (invoices : Snapshot Invoice (·.id)) (merchantId : String) (filters : Filters) :
    Except Error (CursorPage α) :=
  listPage collate readInteger filters.limit (conditions toUpperCase merchantId filters.status)
    toInvoiceResponse invoices filters.cursor

end InvoicesListService

/-! ## Audit log -/

/-- A row of the audit log under the id that `newId` gave it. -/
structure AuditLogRow where
  id : String
  log : AuditLog
  deriving DecidableEq, Repr

namespace AdminAuditLogsService

structure Filters where
  merchantId : Option String
  actorId : Option String
  action : Option String
  resourceType : Option String
  cursor : Option String
  limit : Option String
  deriving DecidableEq, Repr

/-- A filter that is not given, or empty, asks for nothing. -/
def asked (filter value : Option String) : Bool :=
  match filter.filter (· ≠ "") with
  | none => true
  | some wanted => decide (value = some wanted)

def conditions (filters : Filters) (row : AuditLogRow) : Bool :=
  asked filters.merchantId row.log.merchantId && asked filters.actorId row.log.actorId &&
    asked filters.action (some row.log.action) &&
    asked filters.resourceType (some row.log.resourceType)

/-- Newest first: in ascending order of the dual. -/
def list (collate : String ↪ κ) (readInteger : String → Option Int)
    (toAdminAuditLogResponse : AuditLogRow → α) (auditLogs : Snapshot AuditLogRow (·.id))
    (filters : Filters) : Except Error (CursorPage α) :=
  listPage (collate.trans OrderDual.toDual.toEmbedding) readInteger filters.limit
    (.ok (conditions filters)) toAdminAuditLogResponse auditLogs filters.cursor

end AdminAuditLogsService

/-! ## Every request is a page -/

variable {id : ρ → String} {collate : String ↪ κ} {readInteger : String → Option Int}
  {limit : Option String} {conditions : Except Error (ρ → Bool)} {respond : ρ → α}

theorem one_le_parseLimit {raw : Option String} {n : Int}
    (h : parseLimit readInteger raw = .ok n) : 1 ≤ n := by
  unfold parseLimit at h
  dsimp only at h
  split at h
  · cases h
    decide
  · next text =>
    split at h
    · cases h
    · next parsed hparsed =>
      cases h
      have hbounds := (Option.filter_eq_some_iff.1 hparsed).2
      simp only [decide_eq_true_eq] at hbounds
      exact hbounds.1

theorem beyondCursor_iff {cursor : Option String} (hcursor : cursor ≠ some "") (i : String) :
    beyondCursor collate cursor i = true ↔ ∀ c ∈ cursor.map collate, c < collate i := by
  unfold beyondCursor
  cases cursor with
  | none => simp
  | some c =>
    have hne : c ≠ "" := fun h => hcursor (by rw [h])
    simp [Option.filter, hne]

omit [LinearOrder κ] in
theorem nodup_filter (table : Snapshot ρ id) (p : ρ → Bool) :
    ((table.rows.filter p).map fun row => collate (id row)).Nodup := by
  have hids : ((table.rows.filter p).map id).Nodup :=
    table.nodup.sublist (List.filter_sublist.map id)
  rw [← List.nodup_map_iff collate.injective, List.map_map] at hids
  exact hids

variable (collate respond) in
/-- A request that is not refused returns a page of the rows that match. -/
theorem listPage_isPage {n : Int} {matching : ρ → Bool} (table : Snapshot ρ id)
    {cursor : Option String} (hlimit : parseLimit readInteger limit = .ok n)
    (hconditions : conditions = .ok matching) (hcursor : cursor ≠ some "") :
    ∃ items next, listPage collate readInteger limit conditions respond table cursor =
        .ok ⟨items.map respond, next⟩ ∧ next ≠ some "" ∧
      IsPage (fun row => collate (id row)) (table.rows.filter matching) (cursor.map collate) items
        (next.map collate) := by
  have hpos : 0 < n.toNat := by
    have hone := one_le_parseLimit hlimit
    omega
  let beyond := table.rows.filter fun row =>
    matching row && beyondCursor collate cursor (id row)
  have hsub : beyond.Sublist table.rows := List.filter_sublist
  have hmem : ∀ row, row ∈ beyond ↔ row ∈ table.rows.filter matching ∧
      ∀ c ∈ cursor.map collate, c < collate (id row) := by
    intro row
    simp only [beyond, List.mem_filter, Bool.and_eq_true, beyondCursor_iff hcursor, and_assoc]
  let fetched := (sorted (fun row => collate (id row)) beyond).take (n.toNat + 1)
  have hpage := isPage_take (nodup_filter table _) hpos hmem (rfl : fetched = _)
  refine ⟨fetched.take n.toNat, (paginate id fetched n.toNat).nextCursor, ?_, ?_, ?_⟩
  · rw [listPage, hlimit, bind_ok, hconditions, bind_ok]
    rfl
  · intro hempty
    obtain ⟨row, hrow, hid⟩ : ∃ row ∈ fetched, id row = "" := by
      unfold paginate at hempty
      dsimp only at hempty
      split_ifs at hempty
      obtain ⟨row, hlast, hid⟩ := Option.map_eq_some_iff.1 hempty
      exact ⟨row, List.mem_of_mem_take (List.mem_of_getLast? hlast), hid⟩
    have hbeyond : row ∈ beyond := mem_sorted.1 (List.mem_of_mem_take hrow)
    exact table.id_ne_empty row (hsub.subset hbeyond) hid
  · have hnext : (paginate id fetched n.toNat).nextCursor.map collate =
        if n.toNat < fetched.length then
          (fetched.take n.toNat).getLast?.map (fun row => collate (id row))
        else none := by
      unfold paginate
      dsimp only
      split_ifs
      · rw [Option.map_map]
        rfl
      · rfl
    rw [hnext]
    exact hpage

/-! ## Following the cursors is a walk -/

variable (collate respond) in
/-- The client of a listing that is not refused walks over the rows that match. -/
theorem follow_walk {n : Int} {matching : ρ → Bool}
    (hlimit : parseLimit readInteger limit = .ok n) (hconditions : conditions = .ok matching)
    (tables : List (Snapshot ρ id)) (position : Paging.Position String)
    (hposition : position.cursor ≠ some "") :
    ∃ rows last,
      follow (listPage collate readInteger limit conditions respond) position tables =
        .ok (rows.map respond, last) ∧
      Walk (fun row => collate (id row)) (fun table : Snapshot ρ id => table.rows.filter matching)
        (position.map collate) tables rows (last.map collate) := by
  induction tables generalizing position with
  | nil =>
    refine ⟨[], position, ?_, .stop _⟩
    cases position <;> rfl
  | cons table tables ih =>
    by_cases hfinished : position = .finished
    · subst hfinished
      exact ⟨[], .finished, rfl, .finished _⟩
    · obtain ⟨items, next, hpage, hnext, hispage⟩ :=
        listPage_isPage collate respond table hlimit hconditions hposition
      have hcursor : (Paging.Position.ofNext next).cursor ≠ some "" := by
        cases next with
        | none => exact nofun
        | some c => exact hnext
      obtain ⟨rows, last, hrest, hwalk⟩ := ih _ hcursor
      refine ⟨items ++ rows, last, ?_, ?_⟩
      · have hstep : follow (listPage collate readInteger limit conditions respond) position
            (table :: tables) = (do
              let page ← listPage collate readInteger limit conditions respond table position.cursor
              let (items, last) ← follow (listPage collate readInteger limit conditions respond)
                (.ofNext page.nextCursor) tables
              return (page.items ++ items, last)) := by
          cases position with
          | finished => exact absurd rfl hfinished
          | start => rfl
          | after => rfl
        rw [hstep, hpage, bind_ok, hrest, bind_ok, List.map_append]
        rfl
      · rw [Paging.Position.map_ofNext] at hwalk
        refine .page ?_ ?_ hwalk
        · cases position with
          | finished => exact absurd rfl hfinished
          | start => exact nofun
          | after => exact nofun
        · rw [Paging.Position.cursor_map]
          exact hispage

theorem listPage_enumerates {n : Int} {matching : ρ → Bool}
    (hlimit : parseLimit readInteger limit = .ok n) (hconditions : conditions = .ok matching) :
    Enumerates collate matching respond fun (table : Snapshot ρ id) cursor =>
      listPage collate readInteger limit conditions respond table cursor where
  unchanged := by
    intro table m hm
    obtain ⟨rows, last, hfollow, hwalk⟩ :=
      follow_walk collate respond hlimit hconditions (List.replicate m table) .start nofun
    obtain ⟨hrows, hlast⟩ := hwalk.whole (nodup_filter table matching)
      (lt_of_le_of_lt (List.length_filter_le _ _) hm)
    have hend : last = .finished := by
      cases last with
      | finished => rfl
      | start => cases hlast
      | after => cases hlast
    rw [hfollow, hrows, hend]
  changing := by
    intro tables
    obtain ⟨rows, last, hfollow, hwalk⟩ :=
      follow_walk collate respond hlimit hconditions tables .start nofun
    refine ⟨rows, last, hfollow, hwalk.increasing, ?_, ?_⟩
    · intro row hrow
      obtain ⟨-, -, table, htable, hmem⟩ := hwalk.mem hrow
      exact ⟨(List.mem_filter.1 hmem).2, table, htable, (List.mem_filter.1 hmem).1⟩
    · intro i hpassed hthere
      obtain ⟨row, hrow, hid⟩ := hwalk.returned (k := collate i) not_false hpassed (by
        intro table htable
        obtain ⟨row, hrow, hmatching, hid⟩ := hthere table htable
        exact ⟨row, List.mem_filter.2 ⟨hrow, hmatching⟩, by rw [hid]⟩)
      exact ⟨row, hrow, collate.injective hid⟩

/-! ## What is refused -/

/-- A limit that is served: none, or an integer from 1 to what a page may hold. -/
def AcceptedLimit (readInteger : String → Option Int) (raw : Option String) : Prop :=
  ∀ text ∈ raw, ∃ n ∈ readInteger text, 1 ≤ n ∧ n ≤ maxPageLimit

instance (readInteger : String → Option Int) (raw : Option String) :
    Decidable (AcceptedLimit readInteger raw) := by
  unfold AcceptedLimit
  infer_instance

def limitError : Error := .app 400 ("limit must be an integer between 1 and " ++
  toString maxPageLimit)

theorem parseLimit_of_accepted {raw : Option String} (h : AcceptedLimit readInteger raw) :
    ∃ n, parseLimit readInteger raw = .ok n := by
  unfold parseLimit
  cases raw with
  | none => exact ⟨_, rfl⟩
  | some text =>
    obtain ⟨n, hread, hbounds⟩ := h text rfl
    have hkept : (readInteger text).filter
        (fun parsed => decide (1 ≤ parsed ∧ parsed ≤ maxPageLimit)) = some n :=
      Option.filter_eq_some_iff.2 ⟨hread, decide_eq_true hbounds⟩
    refine ⟨n, ?_⟩
    dsimp only [Option.getD]
    rw [hkept]

theorem parseLimit_of_not_accepted {raw : Option String} (h : ¬AcceptedLimit readInteger raw) :
    parseLimit readInteger raw = .error limitError := by
  unfold parseLimit
  cases raw with
  | none => exact absurd (fun _ hnone => by cases hnone) h
  | some text =>
    have hdropped : (readInteger text).filter
        (fun parsed => decide (1 ≤ parsed ∧ parsed ≤ maxPageLimit)) = none := by
      rw [Option.filter_eq_none_iff]
      intro n hread hbounds
      refine h fun text' htext => ?_
      cases htext
      exact ⟨n, hread, of_decide_eq_true hbounds⟩
    dsimp only [Option.getD]
    rw [hdropped]
    rfl

namespace InvoicesListService

variable {toUpperCase : String → String} {merchantId : String} {status : Option String}

/-- A status filter that is served: none, or the name of a status. An empty one counts as none. -/
def KnownStatus (toUpperCase : String → String) (status : Option String) : Prop :=
  ∀ text ∈ status.filter (· ≠ ""), ∃ s ∈ statuses, s.name = toUpperCase text

instance (toUpperCase : String → String) (status : Option String) :
    Decidable (KnownStatus toUpperCase status) := by
  unfold KnownStatus
  infer_instance

/-- The invoices that a request asks for. -/
def Matches (toUpperCase : String → String) (merchantId : String) (status : Option String)
    (invoice : Invoice) : Prop :=
  invoice.merchantId = merchantId ∧
    ∀ text ∈ status.filter (· ≠ ""), invoice.status.name = toUpperCase text

instance (toUpperCase : String → String) (merchantId : String) (status : Option String) :
    DecidablePred (Matches toUpperCase merchantId status) := fun invoice => by
  unfold Matches
  infer_instance

/-- Every status is listed, under a name of its own. -/
theorem mem_statuses (s : InvoiceStatus) : s ∈ statuses := by
  cases s <;> decide

theorem name_injective {s s' : InvoiceStatus} (h : s.name = s'.name) : s = s' := by
  have hnames : (statuses.map InvoiceStatus.name).Nodup := by decide
  exact List.inj_on_of_nodup_map hnames (mem_statuses s) (mem_statuses s') h

theorem conditions_of_known (h : KnownStatus toUpperCase status) :
    InvoicesListService.conditions toUpperCase merchantId status =
      .ok fun invoice => decide (Matches toUpperCase merchantId status invoice) := by
  unfold InvoicesListService.conditions
  cases hstatus : status.filter (· ≠ "") with
  | none =>
    refine congrArg Except.ok (funext fun invoice => decide_eq_decide.2 ?_)
    unfold Matches
    rw [hstatus]
    exact (and_iff_left fun _ hnone => by cases hnone).symm
  | some text =>
    obtain ⟨s, -, hname⟩ := h text hstatus
    have hfound : statuses.find? (fun s => decide (s.name = toUpperCase text)) = some s := by
      have hsome : (statuses.find? fun s => decide (s.name = toUpperCase text)).isSome = true :=
        List.find?_isSome.2 ⟨s, mem_statuses s, decide_eq_true hname⟩
      obtain ⟨s', hs'⟩ := Option.isSome_iff_exists.1 hsome
      obtain ⟨hname', -⟩ := List.find?_eq_some_iff_append.1 hs'
      rw [hs', name_injective ((of_decide_eq_true hname').trans hname.symm)]
    dsimp only
    rw [hfound]
    refine congrArg Except.ok (funext fun invoice => decide_eq_decide.2 ?_)
    unfold Matches
    rw [hstatus]
    constructor
    · rintro ⟨hmerchant, rfl⟩
      refine ⟨hmerchant, fun _ htext => ?_⟩
      cases htext
      exact hname
    · rintro ⟨hmerchant, hasked⟩
      exact ⟨hmerchant, name_injective ((hasked text rfl).trans hname.symm)⟩

theorem conditions_of_unknown (h : ¬KnownStatus toUpperCase status) :
    InvoicesListService.conditions toUpperCase merchantId status =
      .error (.checkViolation "InvoiceStatus") := by
  unfold InvoicesListService.conditions
  cases hstatus : status.filter (· ≠ "") with
  | none => exact absurd (fun _ hnone => by rw [hstatus] at hnone; cases hnone) h
  | some text =>
    have hnone : statuses.find? (fun s => s.name = toUpperCase text) = none := by
      rw [List.find?_eq_none]
      intro s hs hname
      refine h fun text' htext => ?_
      rw [hstatus] at htext
      cases htext
      exact ⟨s, hs, of_decide_eq_true hname⟩
    dsimp only
    rw [hnone]

end InvoicesListService

/-! ## The two listings -/

/-- **Listings enumerate** what the filters ask for, unless the limit or the status is none that is
served. -/
theorem lists_enumerate (collate : String ↪ κ) (readInteger : String → Option Int)
    (toUpperCase : String → String) :
    (∀ (toInvoiceResponse : Invoice → α) (merchantId : String)
      (filters : InvoicesListService.Filters),
      (¬AcceptedLimit readInteger filters.limit → ∀ invoices, InvoicesListService.list collate
        readInteger toUpperCase toInvoiceResponse invoices merchantId filters =
          .error limitError) ∧
      (AcceptedLimit readInteger filters.limit →
        ¬InvoicesListService.KnownStatus toUpperCase filters.status → ∀ invoices,
          InvoicesListService.list collate readInteger toUpperCase toInvoiceResponse invoices
            merchantId filters = .error (.checkViolation "InvoiceStatus")) ∧
      (AcceptedLimit readInteger filters.limit →
        InvoicesListService.KnownStatus toUpperCase filters.status →
        Enumerates collate
          (fun invoice => decide
            (InvoicesListService.Matches toUpperCase merchantId filters.status invoice))
          toInvoiceResponse fun invoices cursor =>
            InvoicesListService.list collate readInteger toUpperCase toInvoiceResponse invoices
              merchantId { filters with cursor := cursor })) ∧
    ∀ (toAdminAuditLogResponse : AuditLogRow → α) (filters : AdminAuditLogsService.Filters),
      (¬AcceptedLimit readInteger filters.limit → ∀ auditLogs, AdminAuditLogsService.list collate
        readInteger toAdminAuditLogResponse auditLogs filters = .error limitError) ∧
      (AcceptedLimit readInteger filters.limit →
        Enumerates (collate.trans OrderDual.toDual.toEmbedding)
          (AdminAuditLogsService.conditions filters) toAdminAuditLogResponse
          fun auditLogs cursor => AdminAuditLogsService.list collate readInteger
            toAdminAuditLogResponse auditLogs { filters with cursor := cursor }) := by
  constructor
  · intro toInvoiceResponse merchantId filters
    refine ⟨fun hlimit invoices => ?_, fun hlimit hstatus invoices => ?_, fun hlimit hstatus => ?_⟩
    · rw [InvoicesListService.list, listPage, parseLimit_of_not_accepted hlimit, bind_error]
    · obtain ⟨n, hn⟩ := parseLimit_of_accepted hlimit
      rw [InvoicesListService.list, listPage, hn, bind_ok,
        InvoicesListService.conditions_of_unknown hstatus, bind_error]
    · obtain ⟨n, hn⟩ := parseLimit_of_accepted hlimit
      exact listPage_enumerates hn (InvoicesListService.conditions_of_known hstatus)
  · intro toAdminAuditLogResponse filters
    refine ⟨fun hlimit auditLogs => ?_, fun hlimit => ?_⟩
    · rw [AdminAuditLogsService.list, listPage, parseLimit_of_not_accepted hlimit, bind_error]
    · obtain ⟨n, hn⟩ := parseLimit_of_accepted hlimit
      exact listPage_enumerates hn rfl

namespace Shop

/-- By the codes of the characters. -/
def byCode : String ↪ List Nat where
  toFun text := text.toList.map Char.toNat
  inj' := by
    intro a b h
    have hchar : Function.Injective Char.toNat := fun _ _ => Char.toNat_inj.1
    exact String.toList_injective (List.map_injective_iff.2 hchar h)

def integerOf (text : String) : Option Int :=
  if text = "2" then some 2 else if text = "101" then some 101 else none

def suspended (id : String) : AuditLogRow :=
  ⟨id, AuditLogEntry.row Redaction.plainText 0 ⟨some "usr_1", "merchant.suspended", "merchant",
    some "m", none, none, none, none, none⟩⟩

/-- Three rows of the audit log, as a table may hold them. -/
def auditLogs : Snapshot AuditLogRow (·.id) where
  rows := ["alog_b", "alog_c", "alog_a"].map suspended
  nodup := by decide
  id_ne_empty := by decide

def pagesOf (limit : String) : AdminAuditLogsService.Filters :=
  ⟨none, none, none, none, none, some limit⟩

/-- In pages of two, the newest rows come first and the third is on the second page. -/
theorem lists_enumerate_newestFirst :
    follow (fun table cursor => AdminAuditLogsService.list byCode integerOf (·.id) table
        { pagesOf "2" with cursor := cursor }) .start (List.replicate 4 auditLogs) =
      .ok (["alog_c", "alog_b", "alog_a"], .finished) ∧
    AdminAuditLogsService.list byCode integerOf (·.id) auditLogs (pagesOf "101") =
      .error limitError := by
  have hserved := (lists_enumerate byCode integerOf toUpperCase).2 fun row : AuditLogRow => row.id
  have hwalk := ((hserved (pagesOf "2")).2 (by decide +kernel)).unchanged auditLogs 4 (by decide)
  have hmatching : auditLogs.rows.filter (AdminAuditLogsService.conditions (pagesOf "2")) =
      ["alog_b", "alog_c", "alog_a"].map suspended := by
    decide +kernel
  have horder : sorted (fun row => (byCode.trans OrderDual.toDual.toEmbedding) row.id)
      (["alog_b", "alog_c", "alog_a"].map suspended) =
        ["alog_c", "alog_b", "alog_a"].map suspended := by
    refine (increasing_sorted (by decide)).eq_of_mem_iff ?_ fun row => ?_
    · show List.Pairwise _ _
      decide
    · rw [mem_sorted]
      simp only [List.map_cons, List.map_nil, List.mem_cons, List.not_mem_nil, or_false]
      tauto
  rw [hmatching, horder] at hwalk
  exact ⟨hwalk, (hserved (pagesOf "101")).1 (by decide +kernel) auditLogs⟩

end Shop

end PaymentGateway
