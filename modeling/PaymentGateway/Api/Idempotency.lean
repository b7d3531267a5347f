import PaymentGateway.Lib.Concurrent

/-!
# Idempotency keys

`execute` runs a handler under a row for the merchant, the endpoint and the key of a request. It is
cut at its awaits: the read of the row, its insert, the handler, and the delete or the update that
follow. The insert is atomic and the database keeps one row for each key.

**Theorem (`idempotent`).** Whatever calls overlap: a key has at most one handler run that
succeeded; a handler runs only while the row of its key is its own, with the hash of its own body; a
call that succeeded has left what it returned in the row, and every call with its body that begins
later returns just that; and a call that failed has left no row.

A row belongs to the call that inserted it, and only this call changes it (`Undisturbed`). From the
insert to its end a call can therefore count on its row, and on the runs of its key.
-/

namespace PaymentGateway

namespace IdempotencyService

open Program Concurrent

/-! ## The model -/

structure Scope where
  merchantId : String
  endpoint : String
  key : String
  deriving DecidableEq, Repr

/-- The parameters of a call. The handler answers in a moment of its own. -/
structure Params (B : Type) extends Scope where
  requestBody : B
  ttlMs : Option Int

structure HandlerResult (J : Type) where
  status : Int
  body : J

structure Executed (J : Type) extends HandlerResult J where
  replayed : Bool

structure Response (J : Type) extends HandlerResult J where
  completedAt : Int

/-- A row, with the call that inserted it for an id. Bodies are what is stored of them as JSON. -/
structure Row (J : Type) where
  owner : Nat
  requestHash : String
  lockedAt : Int
  expiresAt : Int
  response : Option (Response J)

inductive IdempotencyError (E : Type)
  | keyReused (key : String)
  | inFlight (key : String)
  | uniqueViolation
  | recordNotFound
  | handler (error : E)

def IdempotencyError.message {E : Type} : IdempotencyError E → String
  | .keyReused _ => "this idempotency key was already used with a different request body"
  | .inFlight _ => "a request with this idempotency key is already in progress"
  | .uniqueViolation => "unique constraint failed"
  | .recordNotFound => "record not found"
  | .handler _ => "the handler failed"

inductive Request (J : Type)
  | find (scope : Scope)
  | create (scope : Scope) (requestHash : String) (ttlMs : Int)
  | handler (scope : Scope)
  | delete (scope : Scope)
  | update (scope : Scope) (result : HandlerResult J)

abbrev Answer (J : Type) : Request J → Type
  | .find _ => Option (Row J)
  | .create .. => Unit
  | .handler _ => HandlerResult J
  | .delete _ => Unit
  | .update .. => Unit

variable {B J E : Type}

abbrev Process (J E α : Type) := Program (Request J) (Answer J) (IdempotencyError E) α

def findUnique (scope : Scope) : Process J E (Option (Row J)) := Program.call (Request.find scope)

def create (scope : Scope) (requestHash : String) (ttlMs : Int) : Process J E Unit :=
  Program.call (Request.create scope requestHash ttlMs)

def runHandler (scope : Scope) : Process J E (HandlerResult J) :=
  Program.call (Request.handler scope)

def delete (scope : Scope) : Process J E Unit := Program.call (Request.delete scope)

def update (scope : Scope) (result : HandlerResult J) : Process J E Unit :=
  Program.call (Request.update scope result)

def execute (hashBody : B → String) (params : Params B) : Process J E (Executed J) := do
  let requestHash := hashBody params.requestBody
  let ttlMs := params.ttlMs.getD (24 * 60 * 60 * 1000)
  match ← findUnique params.toScope with
  | some existing =>
    if existing.requestHash ≠ requestHash then
      throw (.keyReused params.key)
    else
      match existing.response with
      | some response => pure ⟨response.toHandlerResult, true⟩
      | none => throw (.inFlight params.key)
  | none =>
    try
      create params.toScope requestHash ttlMs
    catch _ =>
      throw (.inFlight params.key)
    let result ←
      try
        runHandler params.toScope
      catch error =>
        try
          delete params.toScope
        catch _ =>
          pure ()
        throw error
    update params.toScope result
    pure ⟨result, false⟩

/-- A handler run that succeeded. -/
structure Run (J : Type) where
  owner : Nat
  scope : Scope
  result : HandlerResult J

/-- The rows, the successful runs, newest first, and the rows that each call began with. -/
structure Shared (J : Type) where
  rows : Scope → Option (Row J)
  runs : List (Run J)
  atStart : Nat → Scope → Option (Row J)

def Shared.setRow (s : Shared J) (scope : Scope) (row : Option (Row J)) : Shared J :=
  { s with rows := Function.update s.rows scope row }

@[simp] theorem Shared.setRow_self (s : Shared J) (scope : Scope) (row : Option (Row J)) :
    (s.setRow scope row).rows scope = row :=
  Function.update_self ..

@[simp] theorem Shared.setRow_ne (s : Shared J) {scope scope' : Scope} (row : Option (Row J))
    (h : scope' ≠ scope) : (s.setRow scope row).rows scope' = s.rows scope' :=
  Function.update_of_ne h ..

@[simp] theorem Shared.runs_setRow (s : Shared J) (scope : Scope) (row : Option (Row J)) :
    (s.setRow scope row).runs = s.runs := rfl

@[simp] theorem Shared.atStart_setRow (s : Shared J) (scope : Scope) (row : Option (Row J)) :
    (s.setRow scope row).atStart = s.atStart := rfl

structure Moment (J E : Type) where
  now : Int
  outcome : Except E (HandlerResult J)

def perform (i : Nat) (r : Request J) (m : Moment J E) (s : Shared J) :
    Except (IdempotencyError E) (Answer J r) × Shared J :=
  match r with
  | .find scope => (.ok (s.rows scope), s)
  | .create scope requestHash ttlMs =>
    match s.rows scope with
    | some _ => (.error .uniqueViolation, s)
    | none =>
      (.ok (), s.setRow scope (some ⟨i, requestHash, m.now, m.now + ttlMs, none⟩))
  | .handler scope =>
    match m.outcome with
    | .ok result => (.ok result, { s with runs := ⟨i, scope, result⟩ :: s.runs })
    | .error error => (.error (.handler error), s)
  | .delete scope =>
    match s.rows scope with
    | some _ => (.ok (), s.setRow scope none)
    | none => (.error .recordNotFound, s)
  | .update scope result =>
    match s.rows scope with
    | some row =>
      (.ok (), s.setRow scope (some { row with response := some ⟨result, m.now⟩ }))
    | none => (.error .recordNotFound, s)

def enter (i : Nat) (_ : Params B) (s : Shared J) : Shared J :=
  { s with atStart := Function.update s.atStart i s.rows }

def system (hashBody : B → String) :
    System (Request J) (Answer J) (IdempotencyError E) (Executed J) (Params B) (Moment J E) Empty
      (Shared J) where
  code := execute hashBody
  perform := perform
  enter := enter
  environment := fun e _ => nomatch e

/-- Calls that overlap in any way. -/
def overlapping : Rules (Request J) (Answer J) (IdempotencyError E) (Executed J) (Params B)
    (Moment J E) Empty (Shared J) where
  starts _ _ := True
  live _ _ := True
  steps _ _ _ _ := True
  happens _ _ := True

instance (move : Move (Params B) (Moment J E) Empty)
    (s : Concurrent.State (Request J) (Answer J) (IdempotencyError E) (Executed J) (Params B)
      (Shared J)) : Decidable (overlapping.meets move s) :=
  have : ∀ params s, Decidable ((overlapping (B := B) (J := J) (E := E)).starts params s) :=
    fun _ _ => inferInstanceAs (Decidable True)
  have : ∀ n i, Decidable ((overlapping (B := B) (J := J) (E := E)).live n i) :=
    fun _ _ => inferInstanceAs (Decidable True)
  have : ∀ i r m s, Decidable ((overlapping (B := B) (J := J) (E := E)).steps i r m s) :=
    fun _ _ _ _ => inferInstanceAs (Decidable True)
  have : ∀ e s, Decidable ((overlapping (B := B) (J := J) (E := E)).happens e s) :=
    fun _ _ => inferInstanceAs (Decidable True)
  inferInstance

def start : Shared J := ⟨fun _ => none, [], fun _ _ => none⟩

abbrev State (B J E : Type) :=
  Concurrent.State (Request J) (Answer J) (IdempotencyError E) (Executed J) (Params B) (Shared J)

/-! ## The invariant -/

def runsOf (scope : Scope) (runs : List (Run J)) : List (Run J) :=
  runs.filter fun run => run.scope = scope

/-- A key has the run of its row, or none, and a row that was completed when a call began is still
there. -/
structure OneRun (s : Shared J) : Prop where
  absent : ∀ scope, s.rows scope = none → runsOf scope s.runs = []
  running : ∀ scope row, s.rows scope = some row → row.response = none →
    (runsOf scope s.runs).length ≤ 1
  completed : ∀ scope row response, s.rows scope = some row → row.response = some response →
    runsOf scope s.runs = [⟨row.owner, scope, response.toHandlerResult⟩]
  remembered : ∀ i scope row, s.atStart i scope = some row → row.response ≠ none →
    s.rows scope = some row

theorem OneRun.start : OneRun (start (J := J)) where
  absent _ _ := rfl
  running _ _ hrow := by cases hrow
  completed _ _ _ hrow := by cases hrow
  remembered _ _ _ hrow := by cases hrow

theorem OneRun.length_le {s : Shared J} (h : OneRun s) (scope : Scope) :
    (runsOf scope s.runs).length ≤ 1 := by
  cases hrow : s.rows scope with
  | none => simp [h.absent scope hrow]
  | some row =>
    cases hresponse : row.response with
    | none => exact h.running scope row hrow hresponse
    | some response => simp [h.completed scope row response hrow hresponse]

theorem OneRun.setRow {s : Shared J} (h : OneRun s) {scope : Scope} {row : Option (Row J)}
    (hbefore : ∀ old, s.rows scope = some old → old.response = none)
    (habsent : row = none → runsOf scope s.runs = [])
    (hrunning : ∀ new, row = some new → new.response = none → (runsOf scope s.runs).length ≤ 1)
    (hcompleted : ∀ new response, row = some new → new.response = some response →
      runsOf scope s.runs = [⟨new.owner, scope, response.toHandlerResult⟩]) :
    OneRun (s.setRow scope row) where
  absent scope' hrow := by
    by_cases hscope : scope' = scope
    · subst hscope
      exact habsent (by simpa using hrow)
    · exact h.absent scope' (by simpa [hscope] using hrow)
  running scope' new hrow hresponse := by
    by_cases hscope : scope' = scope
    · subst hscope
      exact hrunning new (by simpa using hrow) hresponse
    · exact h.running scope' new (by simpa [hscope] using hrow) hresponse
  completed scope' new response hrow hresponse := by
    by_cases hscope : scope' = scope
    · subst hscope
      exact hcompleted new response (by simpa using hrow) hresponse
    · exact h.completed scope' new response (by simpa [hscope] using hrow) hresponse
  remembered i scope' old hold hdone := by
    have hrow := h.remembered i scope' old hold hdone
    by_cases hscope : scope' = scope
    · subst hscope
      exact absurd (hbefore old hrow) hdone
    · simpa [hscope] using hrow

theorem runsOf_cons_self (run : Run J) (runs : List (Run J)) :
    runsOf run.scope (run :: runs) = run :: runsOf run.scope runs := by
  simp [runsOf]

theorem runsOf_cons_ne (run : Run J) {scope : Scope} (h : run.scope ≠ scope) (runs : List (Run J)) :
    runsOf scope (run :: runs) = runsOf scope runs := by
  simp [runsOf, h]

/-- The first run of a key that is in progress. -/
theorem OneRun.run {s : Shared J} (h : OneRun s) {scope : Scope} {row : Row J}
    (hrow : s.rows scope = some row) (hresponse : row.response = none)
    (hruns : runsOf scope s.runs = []) (i : Nat) (result : HandlerResult J) :
    OneRun { s with runs := ⟨i, scope, result⟩ :: s.runs } where
  absent scope' hnone := by
    by_cases hscope : scope = scope'
    · rw [← hscope, hrow] at hnone
      cases hnone
    · exact (runsOf_cons_ne _ hscope s.runs).trans (h.absent scope' hnone)
  running scope' new hnew hnone := by
    by_cases hscope : scope = scope'
    · subst hscope
      have hself := runsOf_cons_self ⟨i, scope, result⟩ s.runs
      simp only at hself
      simp [hself, hruns]
    · have hother := runsOf_cons_ne ⟨i, scope, result⟩ hscope s.runs
      rw [hother]
      exact h.running scope' new hnew hnone
  completed scope' new response hnew hsome := by
    by_cases hscope : scope = scope'
    · rw [← hscope, hrow] at hnew
      cases hnew
      rw [hresponse] at hsome
      cases hsome
    · exact (runsOf_cons_ne _ hscope s.runs).trans (h.completed scope' new response hnew hsome)
  remembered := h.remembered

/-! ## What calls leave to one another -/

/-- What the others leave to a call: its row and the runs of its key, completed rows, and what it
began with. -/
structure Undisturbed (i : Nat) (s s' : Shared J) : Prop where
  mine : ∀ scope row, row.owner = i → (s.rows scope = some row ↔ s'.rows scope = some row)
  runs : ∀ scope row, s.rows scope = some row → row.owner = i →
    runsOf scope s'.runs = runsOf scope s.runs
  completed : ∀ scope row, s.rows scope = some row → row.response ≠ none →
    s'.rows scope = some row
  atStart : s'.atStart i = s.atStart i

theorem Undisturbed.refl (i : Nat) (s : Shared J) : Undisturbed i s s :=
  ⟨fun _ _ _ => Iff.rfl, fun _ _ _ _ => rfl, fun _ _ h _ => h, rfl⟩

theorem Undisturbed.trans {i : Nat} {s s' s'' : Shared J} (h : Undisturbed i s s')
    (h' : Undisturbed i s' s'') : Undisturbed i s s'' where
  mine scope row howner := (h.mine scope row howner).trans (h'.mine scope row howner)
  runs scope row hrow howner :=
    (h'.runs scope row ((h.mine scope row howner).1 hrow) howner).trans
      (h.runs scope row hrow howner)
  completed scope row hrow hresponse :=
    h'.completed scope row (h.completed scope row hrow hresponse) hresponse
  atStart := h'.atStart.trans h.atStart

/-- A call that has no row. -/
def Idle (i : Nat) (s : Shared J) : Prop := ∀ scope row, s.rows scope = some row → row.owner ≠ i

/-- The key was not completed when the call began. -/
def Open (i : Nat) (scope : Scope) (s : Shared J) : Prop :=
  ∀ row, s.atStart i scope = some row → row.response = none

/-- The row of the key is the call's, the only one it has, and there are these runs of the key. -/
structure Owned (i : Nat) (scope : Scope) (requestHash : String) (runs : List (Run J))
    (s : Shared J) : Prop where
  row : ∃ row, s.rows scope = some row ∧ row.owner = i ∧ row.requestHash = requestHash ∧
    row.response = none
  only : ∀ scope' row, scope' ≠ scope → s.rows scope' = some row → row.owner ≠ i
  runs : runsOf scope s.runs = runs
  free : Open i scope s

theorem Idle.undisturbed {i : Nat} {s s' : Shared J} (h : Idle i s) (hs : Undisturbed i s s') :
    Idle i s' :=
  fun scope row hrow howner => h scope row ((hs.mine scope row howner).2 hrow) howner

theorem Open.undisturbed {i : Nat} {scope : Scope} {s s' : Shared J} (h : Open i scope s)
    (hs : Undisturbed i s s') : Open i scope s' := by
  intro row hrow
  rw [hs.atStart] at hrow
  exact h row hrow

theorem Owned.undisturbed {i : Nat} {scope : Scope} {requestHash : String} {runs : List (Run J)}
    {s s' : Shared J} (h : Owned i scope requestHash runs s) (hs : Undisturbed i s s') :
    Owned i scope requestHash runs s' := by
  obtain ⟨row, hrow, howner, hrest⟩ := h.row
  refine ⟨⟨row, (hs.mine scope row howner).1 hrow, howner, hrest⟩, ?_, ?_, h.free.undisturbed hs⟩
  · intro scope' row' hne hrow' howner'
    exact h.only scope' row' hne ((hs.mine scope' row' howner').2 hrow') howner'
  · rw [hs.runs scope row hrow howner, h.runs]

/-! ## The requests -/

section Calls

variable {hashBody : B → String} {i : Nat} {params : Params B}

/-- A call inserts a row for its own body, and runs its handler under its own row. -/
def Asked (hashBody : B → String) (i : Nat) (params : Params B) (s : Shared J) : Request J → Prop
  | .create scope requestHash _ =>
    scope = params.toScope ∧ requestHash = hashBody params.requestBody
  | .handler scope => scope = params.toScope ∧ ∃ row, s.rows scope = some row ∧ row.owner = i ∧
      row.requestHash = hashBody params.requestBody ∧ row.response = none
  | _ => True

/-- A call leaves the others alone. -/
structure Considerate (hashBody : B → String) (i : Nat) (params : Params B) (r : Request J)
    (s s' : Shared J) : Prop where
  others : ∀ j, j ≠ i → Undisturbed j s s'
  asked : Asked hashBody i params s r

abbrev callTerms (E : Type) (hashBody : B → String) (i : Nat) (params : Params B) :
    Terms (Request J) (Moment J E) (Shared J) :=
  ⟨OneRun, Undisturbed i, Considerate hashBody i params, fun _ _ _ => True⟩

theorem callTerms_lawful : (callTerms (J := J) E hashBody i params).Lawful where
  refl := Undisturbed.refl i
  trans _ _ _ h h' := h.trans h'

/-- A request that changes nothing. -/
theorem considerate_refl {r : Request J} {s : Shared J} (hr : Asked hashBody i params s r) :
    Considerate hashBody i params r s s where
  others j _ := Undisturbed.refl j s
  asked := hr

/-- A request that changes the row of one key, which no other call has, and leaves the runs. -/
theorem considerate_update {r : Request J} {s : Shared J} {scope : Scope} {row : Option (Row J)}
    (hr : Asked hashBody i params s r)
    (hbefore : ∀ old, s.rows scope = some old → old.owner = i ∧ old.response = none)
    (hafter : ∀ new, row = some new → new.owner = i) :
    Considerate hashBody i params r s (s.setRow scope row) where
  asked := hr
  others j hj := {
    mine := fun scope' row' howner => by
      by_cases hscope : scope' = scope
      · subst hscope
        refine iff_of_false (fun h => ?_) fun h => ?_
        · exact hj (howner.symm.trans (hbefore row' h).1)
        · exact hj (howner.symm.trans (hafter row' (by simpa using h)))
      · simp [hscope]
    runs := fun _ _ _ _ => rfl
    completed := fun scope' row' hrow hresponse => by
      by_cases hscope : scope' = scope
      · subst hscope
        exact absurd (hbefore row' hrow).2 hresponse
      · simpa [hscope] using hrow
    atStart := rfl }

/-- What a call that failed has left: no row, and no completed row of its body when it began. -/
structure Failed (hashBody : B → String) (i : Nat) (params : Params B) (s : Shared J) : Prop where
  idle : Idle i s
  other : ∀ row, s.atStart i params.toScope = some row → row.response ≠ none →
    row.requestHash ≠ hashBody params.requestBody

/-- The row of the key holds the result of a call, for its body; the result of a handler run of its
own, in a row of its own. -/
def Stored (hashBody : B → String) (i : Nat) (params : Params B) (result : Executed J)
    (s : Shared J) : Prop :=
  ∃ row response, s.rows params.toScope = some row ∧
    row.requestHash = hashBody params.requestBody ∧ row.response = some response ∧
    response.toHandlerResult = result.toHandlerResult ∧ (result.replayed = false → row.owner = i)

/-- What a call that returned has left, and what it has returned, if its key was completed when it
began. -/
structure Returned (hashBody : B → String) (i : Nat) (params : Params B) (result : Executed J)
    (s : Shared J) : Prop where
  stored : Stored hashBody i params result s
  repeated : ∀ row response, s.atStart i params.toScope = some row →
    row.response = some response → row.requestHash = hashBody params.requestBody →
      result = ⟨response.toHandlerResult, true⟩

theorem Failed.undisturbed {s s' : Shared J} (h : Failed hashBody i params s)
    (hs : Undisturbed i s s') : Failed hashBody i params s' where
  idle := h.idle.undisturbed hs
  other row hrow := h.other row (by rwa [hs.atStart] at hrow)

theorem Returned.undisturbed {result : Executed J} {s s' : Shared J}
    (h : Returned hashBody i params result s) (hs : Undisturbed i s s') :
    Returned hashBody i params result s' := by
  obtain ⟨row, response, hrow, hhash, hresponse, hrest⟩ := h.stored
  refine ⟨⟨row, response, hs.completed _ row hrow (by simp [hresponse]), hhash, hresponse, hrest⟩,
    fun row response hrow => ?_⟩
  rw [hs.atStart] at hrow
  exact h.repeated row response hrow

theorem Open.failed {s : Shared J} (h : Open i params.toScope s) (hidle : Idle i s) :
    Failed hashBody i params s :=
  ⟨hidle, fun row hrow hresponse => absurd (h row hrow) hresponse⟩

theorem Open.returned {s : Shared J} {result : Executed J} (h : Open i params.toScope s)
    (hstored : Stored hashBody i params result s) : Returned hashBody i params result s := by
  refine ⟨hstored, fun row response hrow hresponse => ?_⟩
  rw [h row hrow] at hresponse
  cases hresponse

theorem call_frame : (callTerms (J := J) E hashBody i params).Frame (Failed hashBody i params) where
  toLawful := callTerms_lawful
  failure _ _ h _ hs := h.undisturbed hs

/-- What the read has shown: a row that was completed when the call began, and a row that is
there, if it is completed. -/
structure Found (i : Nat) (scope : Scope) (existing : Option (Row J)) (s : Shared J) : Prop where
  idle : Idle i s
  atStart : ∀ row, s.atStart i scope = some row → row.response ≠ none → existing = some row
  there : ∀ row, existing = some row → row.response ≠ none → s.rows scope = some row

theorem Found.undisturbed {existing : Option (Row J)} {scope : Scope} {s s' : Shared J}
    (h : Found i scope existing s) (hs : Undisturbed i s s') : Found i scope existing s' where
  idle := h.idle.undisturbed hs
  atStart row hrow := h.atStart row (by rwa [hs.atStart] at hrow)
  there row hrow hresponse := hs.completed scope row (h.there row hrow hresponse) hresponse

theorem triple_find :
    Triple (perform i) (callTerms (J := J) E hashBody i params) (Idle i) (findUnique params.toScope)
      (Ends (Failed hashBody i params) fun existing => Found i params.toScope existing) := by
  refine Triple.call (fun s s' h _ hs => h.undisturbed hs) (fun answer => ?_) ?_
  · cases answer with
    | error e => exact fun s s' h _ hs => h.undisturbed hs
    | ok existing => exact fun s s' h _ hs => h.undisturbed hs
  · intro m s hI hs _
    exact ⟨hI, considerate_refl trivial, hs, hI.remembered i params.toScope, fun _ hrow _ => hrow⟩

/-- The insert makes the row the call's. -/
theorem triple_create (ttlMs : Int) :
    Triple (perform i) (callTerms (J := J) E hashBody i params)
      (fun s => Idle i s ∧ Open i params.toScope s)
      (create params.toScope (hashBody params.requestBody) ttlMs)
      (Ends (fun s => Idle i s ∧ Open i params.toScope s)
        fun _ => Owned i params.toScope (hashBody params.requestBody) []) := by
  refine Triple.call ?_ (fun answer => ?_) ?_
  · exact fun s s' h _ hs => ⟨h.1.undisturbed hs, h.2.undisturbed hs⟩
  · cases answer with
    | error e => exact fun s s' h _ hs => ⟨h.1.undisturbed hs, h.2.undisturbed hs⟩
    | ok u => exact fun s s' h _ hs => h.undisturbed hs
  · intro m s hI hs _
    cases hrow : s.rows params.toScope with
    | some row =>
      simp only [perform, hrow]
      exact ⟨hI, considerate_refl ⟨rfl, rfl⟩, hs⟩
    | none =>
      simp only [perform, hrow]
      refine ⟨hI.setRow (by simp [hrow]) (by simp) (fun new _ _ => ?_) ?_,
        considerate_update ⟨rfl, rfl⟩ (by simp [hrow]) (by simp), ?_⟩
      · simp [hI.absent _ hrow]
      · rintro new response ⟨⟩ ⟨⟩
      · refine ⟨⟨⟨i, hashBody params.requestBody, m.now, m.now + ttlMs, none⟩, by simp⟩, ?_, ?_, hs.2⟩
        · intro scope' row hne hother
          exact hs.1 scope' row (by simpa [hne] using hother)
        · exact hI.absent _ hrow

/-- The handler runs under the call's own row. -/
theorem triple_handler :
    Triple (perform i) (callTerms (J := J) E hashBody i params)
      (Owned i params.toScope (hashBody params.requestBody) []) (runHandler params.toScope)
      (Ends (Owned i params.toScope (hashBody params.requestBody) [])
        fun result => Owned i params.toScope (hashBody params.requestBody)
          [⟨i, params.toScope, result⟩]) := by
  refine Triple.call (fun s s' h _ hs => h.undisturbed hs) (fun answer => ?_) ?_
  · cases answer with
    | error e => exact fun s s' h _ hs => h.undisturbed hs
    | ok result => exact fun s s' h _ hs => h.undisturbed hs
  · intro m s hI hs _
    obtain ⟨row, hrow, howner, hhash, hresponse⟩ := hs.row
    have hasked : Asked hashBody i params s (.handler params.toScope) :=
      ⟨rfl, row, hrow, howner, hhash, hresponse⟩
    cases houtcome : m.outcome with
    | error e =>
      simp only [perform, houtcome]
      exact ⟨hI, ⟨fun j _ => Undisturbed.refl j s, hasked⟩, hs⟩
    | ok result =>
      simp only [perform, houtcome]
      refine ⟨hI.run hrow hresponse hs.runs i result, ⟨fun j hj => ?_, hasked⟩, ?_⟩
      · refine ⟨fun _ _ _ => Iff.rfl, fun scope row' hrow' howner' => ?_, fun _ _ h _ => h, rfl⟩
        refine runsOf_cons_ne _ (fun hscope => hj ?_) s.runs
        rw [← hscope, hrow] at hrow'
        cases hrow'
        exact howner'.symm.trans howner
      · refine ⟨hs.row, hs.only, ?_, hs.free⟩
        have hself := runsOf_cons_self ⟨i, params.toScope, result⟩ s.runs
        simp only at hself
        simp [hself, hs.runs]

/-- A failed run gives the key back. -/
theorem triple_delete :
    Triple (perform i) (callTerms (J := J) E hashBody i params)
      (Owned i params.toScope (hashBody params.requestBody) []) (delete params.toScope)
      (Ends (Failed hashBody i params) fun _ => Failed hashBody i params) := by
  refine Triple.call (fun s s' h _ hs => h.undisturbed hs) (fun answer => ?_) ?_
  · cases answer with
    | error e => exact fun s s' h _ hs => h.undisturbed hs
    | ok u => exact fun s s' h _ hs => h.undisturbed hs
  · intro m s hI hs _
    obtain ⟨row, hrow, howner, hhash, hresponse⟩ := hs.row
    have hbefore : ∀ old, s.rows params.toScope = some old → old.owner = i ∧ old.response = none := by
      intro old hold
      rw [hrow] at hold
      cases hold
      exact ⟨howner, hresponse⟩
    simp only [perform, hrow]
    refine ⟨hI.setRow (fun old hold => (hbefore old hold).2) (fun _ => hs.runs) (by simp) (by simp),
      considerate_update trivial hbefore (by simp), Open.failed hs.free fun scope row' hrow' => ?_⟩
    · by_cases hscope : scope = params.toScope
      · subst hscope
        simp at hrow'
      · exact hs.only scope row' hscope (by simpa [hscope] using hrow')

/-- The outcome is stored in the call's own row. -/
theorem triple_update (result : HandlerResult J) :
    Triple (perform i) (callTerms (J := J) E hashBody i params)
      (Owned i params.toScope (hashBody params.requestBody) [⟨i, params.toScope, result⟩])
      (update params.toScope result)
      (Ends (Failed hashBody i params) fun _ => Returned hashBody i params ⟨result, false⟩) := by
  refine Triple.call (fun s s' h _ hs => h.undisturbed hs) (fun answer => ?_) ?_
  · cases answer with
    | error e => exact fun s s' h _ hs => h.undisturbed hs
    | ok u => exact fun s s' h _ hs => h.undisturbed hs
  · intro m s hI hs _
    obtain ⟨row, hrow, howner, hhash, hresponse⟩ := hs.row
    have hbefore : ∀ old, s.rows params.toScope = some old → old.owner = i ∧ old.response = none := by
      intro old hold
      rw [hrow] at hold
      cases hold
      exact ⟨howner, hresponse⟩
    simp only [perform, hrow]
    refine ⟨hI.setRow (fun old hold => (hbefore old hold).2) (by simp) (by simp) ?_,
      considerate_update trivial hbefore (by simp [howner]), Open.returned hs.free ?_⟩
    · intro new response hnew hsome
      cases hnew
      cases hsome
      rw [hs.runs, howner]
    · exact ⟨_, _, Shared.setRow_self .., hhash, rfl, rfl, fun _ => howner⟩

theorem triple_execute :
    Triple (perform i) (callTerms (J := J) E hashBody i params) (Idle i) (execute hashBody params)
      (Ends (Failed hashBody i params) (Returned hashBody i params)) := by
  have hframe : (callTerms (J := J) E hashBody i params).Frame (Failed hashBody i params) :=
    call_frame
  unfold execute
  refine Triple.bind_ends hframe triple_find fun existing => ?_
  cases existing with
  | some existing =>
    by_cases hhash : existing.requestHash = hashBody params.requestBody
    · simp only [hhash, ne_eq, not_true_eq_false, if_false]
      cases hresponse : existing.response with
      | some response =>
        refine Triple.pure_ends (fun s s' h _ hs => h.undisturbed hs) fun s _ hs => ?_
        have hthere := hs.there existing rfl (by simp [hresponse])
        refine ⟨⟨existing, response, hthere, hhash, hresponse, rfl, nofun⟩, ?_⟩
        intro row response' hrow hresponse' _
        have heq := hs.atStart row hrow (by simp [hresponse'])
        cases heq
        rw [hresponse] at hresponse'
        cases hresponse'
        rfl
      | none =>
        refine Triple.throw_ends hframe fun s _ hs => ⟨hs.idle, fun row hrow hcompleted => ?_⟩
        have heq := hs.atStart row hrow hcompleted
        cases heq
        exact absurd hresponse hcompleted
    · simp only [ne_eq, hhash, not_false_eq_true, if_true]
      refine Triple.throw_ends hframe fun s _ hs => ⟨hs.idle, fun row hrow hcompleted => ?_⟩
      have heq := hs.atStart row hrow hcompleted
      cases heq
      exact hhash
  | none =>
    have hopen : ∀ s : Shared J, Found i params.toScope none s →
        Idle i s ∧ Open i params.toScope s := by
      intro s hs
      refine ⟨hs.idle, fun row hrow => ?_⟩
      by_contra hcompleted
      cases hs.atStart row hrow hcompleted
    refine Triple.bind_ends hframe (Triple.tryCatch_ends hframe.toLawful
      ((triple_create _).ends_mono (fun s _ hs => hopen s hs) fun _ _ hs => hs)
      (fun _ s s' h _ hs => h.undisturbed hs) fun e => ?_) fun _ => ?_
    · exact Triple.throw_ends hframe fun s _ hs => Open.failed hs.2 hs.1
    · refine Triple.bind_ends hframe (Triple.tryCatch_ends hframe.toLawful triple_handler
        (fun _ s s' h _ hs => h.undisturbed hs) fun e => ?_) fun result => ?_
      · refine Triple.bind_ends hframe (Triple.tryCatch_ends hframe.toLawful triple_delete
          (fun _ s s' h _ hs => h.undisturbed hs) fun e => ?_) fun _ => ?_
        · exact Triple.pure_ends (fun s s' h _ hs => h.undisturbed hs) fun _ _ hs => hs
        · exact Triple.throw_ends hframe fun _ _ hs => hs
      · refine Triple.bind_ends hframe (triple_update result) fun _ => ?_
        exact Triple.pure_ends (fun s s' h _ hs => h.undisturbed hs) fun _ _ hs => hs

end Calls

/-! ## Runs -/

section Runs

variable {hashBody : B → String} {s : State B J E}

/-- A row has been inserted by this request, or was there before. -/
theorem owner_perform {i : Nat} {r : Request J} {m : Moment J E} {b : Shared J} {scope : Scope}
    {row : Row J} (hrow : (perform i r m b).2.rows scope = some row) :
    (row.owner = i ∧ ∃ ttlMs, r = .create scope row.requestHash ttlMs) ∨
    ∃ old, b.rows scope = some old ∧ row.owner = old.owner ∧ row.requestHash = old.requestHash := by
  cases r with
  | find scope' => exact .inr ⟨row, hrow, rfl, rfl⟩
  | handler scope' =>
    cases houtcome : m.outcome <;> simp only [perform, houtcome] at hrow <;>
      exact .inr ⟨row, hrow, rfl, rfl⟩
  | create scope' requestHash ttlMs =>
    cases hold : b.rows scope' with
    | some old =>
      simp only [perform, hold] at hrow
      exact .inr ⟨row, hrow, rfl, rfl⟩
    | none =>
      simp only [perform, hold] at hrow
      by_cases hscope : scope = scope'
      · subst hscope
        simp only [Shared.setRow_self, Option.some.injEq] at hrow
        subst hrow
        exact .inl ⟨rfl, ttlMs, rfl⟩
      · exact .inr ⟨row, by simpa [hscope] using hrow, rfl, rfl⟩
  | delete scope' =>
    cases hold : b.rows scope' with
    | none =>
      simp only [perform, hold] at hrow
      exact .inr ⟨row, hrow, rfl, rfl⟩
    | some old =>
      simp only [perform, hold] at hrow
      by_cases hscope : scope = scope'
      · subst hscope
        simp at hrow
      · exact .inr ⟨row, by simpa [hscope] using hrow, rfl, rfl⟩
  | update scope' result =>
    cases hold : b.rows scope' with
    | none =>
      simp only [perform, hold] at hrow
      exact .inr ⟨row, hrow, rfl, rfl⟩
    | some old =>
      simp only [perform, hold] at hrow
      by_cases hscope : scope = scope'
      · subst hscope
        simp only [Shared.setRow_self, Option.some.injEq] at hrow
        subst hrow
        exact .inr ⟨old, hold, rfl, rfl⟩
      · exact .inr ⟨row, by simpa [hscope] using hrow, rfl, rfl⟩

/-- Rows belong to calls that have begun. -/
theorem owner_lt (h : (system hashBody).Reachable overlapping start s) {scope : Scope} {row : Row J}
    (hrow : s.shared.rows scope = some row) : row.owner < s.calls.length := by
  refine System.Reachable.induction (P := fun s => ∀ scope row, s.shared.rows scope = some row →
    row.owner < s.calls.length) h ?_ ?_ scope row hrow
  · intro scope row hrow
    cases hrow
  · intro move a b _ ih _ happly scope row hrow
    cases move with
    | environment e => cases e
    | start params =>
      cases happly
      rw [List.length_append]
      exact Nat.lt_add_right _ (ih scope row hrow)
    | step i m =>
      obtain ⟨params, r, next, hcall, rfl⟩ := System.apply_step happly
      rw [List.length_set]
      rcases owner_perform hrow with ⟨rfl, -⟩ | ⟨old, hold, howner, -⟩
      · exact (List.getElem?_eq_some_iff.1 hcall).1
      · rw [howner]
        exact ih scope old hold

/-- What a call leaves. -/
def Left (hashBody : B → String) (i : Nat) (params : Params B) :
    Except (IdempotencyError E) (Executed J) → Shared J → Prop :=
  Ends (Failed hashBody i params) (Returned hashBody i params)

theorem idempotency_compatible (hashBody : B → String) :
    Compatible (system hashBody) overlapping (start (J := J)) OneRun
    Undisturbed (fun i (params : Params B) => Considerate hashBody i params) (fun i _ => Idle i)
    (Left (E := E) hashBody) where
  lawful i params := callTerms_lawful
  code i params := triple_execute
  live _ _ _ _ := trivial
  others _ i j _ _ _ _ hij _ _ _ _ hguar := hguar.others i hij
  environment e := nomatch e
  start params s hreach hgood _ := by
    obtain ⟨habsent, hrunning, hcompleted, hremembered⟩ := hgood.invariant
    refine ⟨⟨habsent, hrunning, hcompleted, fun i scope row hrow hdone => ?_⟩, ?_, fun i hi _ => ?_⟩
    · by_cases hi : i = s.calls.length
      · subst hi
        simpa [system, enter] using hrow
      · exact hremembered i scope row (by simpa [system, enter, hi] using hrow) hdone
    · intro scope row hrow howner
      have hlt := owner_lt hreach hrow
      omega
    · refine ⟨fun _ _ _ => Iff.rfl, fun _ _ _ _ => rfl, fun _ _ h _ => h, ?_⟩
      exact Function.update_of_ne (Nat.ne_of_lt hi) ..

/-- A row was inserted for the body of the call it belongs to. -/
theorem owner_call (h : (system hashBody).Reachable overlapping start s) {scope : Scope}
    {row : Row J} (hrow : s.shared.rows scope = some row) :
    ∃ first program, s.calls[row.owner]? = some (first, program) ∧ first.toScope = scope ∧
      row.requestHash = hashBody first.requestBody := by
  refine System.Reachable.induction (P := fun s => ∀ scope row, s.shared.rows scope = some row →
    ∃ first program, s.calls[row.owner]? = some (first, program) ∧ first.toScope = scope ∧
      row.requestHash = hashBody first.requestBody) h ?_ ?_ scope row hrow
  · intro scope row hrow
    cases hrow
  · intro move a b hreach ih _ happly scope row hrow
    cases move with
    | environment e => cases e
    | start params =>
      cases happly
      obtain ⟨first, program, hcall, hrest⟩ := ih scope row hrow
      refine ⟨first, program, ?_, hrest⟩
      have hlt := (List.getElem?_eq_some_iff.1 hcall).1
      rw [List.getElem?_append_left hlt, hcall]
    | step i m =>
      obtain ⟨params, r, next, hcall, rfl⟩ := System.apply_step happly
      have hlt := (List.getElem?_eq_some_iff.1 hcall).1
      rcases owner_perform hrow with ⟨rfl, ttlMs, rfl⟩ | ⟨old, hold, howner, hhash⟩
      · have hgood := Good.of_reachable (idempotency_compatible hashBody) OneRun.start hreach
        obtain ⟨hscope, hhash⟩ :=
          (hgood.asks (idempotency_compatible hashBody) hcall trivial (m := m) trivial).asked
        exact ⟨params, _, List.getElem?_set_self hlt, hscope.symm, hhash⟩
      · obtain ⟨first, program, hfirst, hscope, hfirsthash⟩ := ih scope old hold
        rw [howner, hhash, hfirsthash]
        by_cases hi : i = old.owner
        · subst hi
          rw [hcall] at hfirst
          cases hfirst
          exact ⟨params, _, List.getElem?_set_self hlt, hscope, rfl⟩
        · exact ⟨first, program, by rw [List.getElem?_set_ne hi, hfirst], hscope, rfl⟩

/-- What idempotency keys promise of a state. A row that is completed belongs to the run that
succeeded; `atStart` has the row as it was when a call began. -/
structure Idempotent (hashBody : B → String) (s : State B J E) : Prop where
  once : ∀ scope, (runsOf scope s.shared.runs).length ≤ 1
  /-- A call that succeeded has left its result in the row of its key, and it is the result of the
  one run. -/
  stored : ∀ (i : Nat) params result, s.calls[i]? = some (params, .done (.ok result)) →
    Stored hashBody i params result s.shared ∧ ∃ owner,
      runsOf params.toScope s.shared.runs =
        [⟨owner, params.toScope, result.toHandlerResult⟩] ∧
      (result.replayed = false → owner = i)
  replayed : ∀ (i : Nat) params result row response first program,
    s.calls[i]? = some (params, .done result) →
    s.shared.atStart i params.toScope = some row → row.response = some response →
    s.calls[row.owner]? = some (first, program) → params.requestBody = first.requestBody →
    result = .ok ⟨response.toHandlerResult, true⟩ ∧
      runsOf params.toScope s.shared.runs =
        [⟨row.owner, params.toScope, response.toHandlerResult⟩]
  exclusive : ∀ (i : Nat) params scope next,
    s.calls[i]? = some (params, .request (.handler scope) next) →
    scope = params.toScope ∧ ∃ row, s.shared.rows scope = some row ∧ row.owner = i ∧
      row.requestHash = hashBody params.requestBody ∧ row.response = none
  released : ∀ (i : Nat) params error, s.calls[i]? = some (params, .done (.error error)) →
    ∀ scope row, s.shared.rows scope = some row → row.owner ≠ i
  usable : ∀ (i : Nat) (params : Params B) (feed : Nat → Moment J E) n result,
    s.shared.rows params.toScope = none → (feed (n + 2)).outcome = .ok result →
    ((execute hashBody params).exec (perform i) feed n s.shared).1 = .ok ⟨result, false⟩

/-- What they promise of two states of a run: a call that begins once another of its key and body
has succeeded returns what that one has returned. -/
def Repeats (s s' : State B J E) : Prop :=
  ∀ (i j : Nat) params params' result result',
    s.calls[i]? = some (params, .done (.ok result)) → s.calls.length ≤ j →
    s'.calls[j]? = some (params', .done result') → params'.toScope = params.toScope →
    params'.requestBody = params.requestBody → result' = .ok ⟨result.toHandlerResult, true⟩

/-- A call that finds no row, and is left alone, runs its handler and returns what it returned. -/
theorem execute_alone {b : Shared J} {params : Params B} (hrow : b.rows params.toScope = none)
    (i : Nat) {feed : Nat → Moment J E} {n : Nat} {result : HandlerResult J}
    (houtcome : (feed (n + 2)).outcome = .ok result) :
    ((execute hashBody params).exec (perform i) feed n b).1 = .ok ⟨result, false⟩ := by
  simp [execute, findUnique, create, runHandler, delete, update, Bind.bind, Program.bind,
    MonadExcept.tryCatch, Program.andThen, Program.call, Program.exec, perform, hrow, houtcome, pure]

/-- A call that has come to its handler has made a step. -/
theorem moment_of_handler (h : (system hashBody).Reachable overlapping start s) {i : Nat}
    {params : Params B} {scope : Scope}
    {next : Except (IdempotencyError E) (HandlerResult J) → Process J E (Executed J)}
    (hcall : s.calls[i]? = some (params, .request (.handler scope) next)) :
    Nonempty (Moment J E) := by
  refine System.Reachable.induction (P := fun s => ∀ (i : Nat) params scope next,
    s.calls[i]? = some (params, .request (.handler scope) next) → Nonempty (Moment J E)) h ?_ ?_
      i params scope next hcall
  · intro i params scope next hcall
    cases hcall
  · intro move a b _ ih _ happly i params scope next hcall
    cases move with
    | environment e => cases e
    | step j m => exact ⟨m⟩
    | start call =>
      cases happly
      by_cases hi : i < a.calls.length
      · exact ih i params scope next (by simpa [List.getElem?_append_left hi] using hcall)
      · rw [List.getElem?_append_right (Nat.le_of_not_lt hi)] at hcall
        have hmem := List.mem_of_getElem? hcall
        rw [List.mem_singleton] at hmem
        cases hmem

theorem atStart_perform (i : Nat) (r : Request J) (m : Moment J E) (b : Shared J) :
    (perform i r m b).2.atStart = b.atStart := by
  cases r with
  | find scope => rfl
  | handler scope => cases h : m.outcome <;> simp [perform, h]
  | create scope requestHash ttlMs => cases h : b.rows scope <;> simp [perform, h]
  | delete scope => cases h : b.rows scope <;> simp [perform, h]
  | update scope result => cases h : b.rows scope <;> simp [perform, h]

/-- A completed row stays, and every call that begins later finds it. -/
theorem completed_later {s' : State B J E} (h : (system hashBody).Reachable overlapping start s)
    (hlater : (system hashBody).Later overlapping s s') {scope : Scope} {row : Row J}
    (hrow : s.shared.rows scope = some row) (hcompleted : row.response ≠ none) :
    s'.shared.rows scope = some row ∧ ∀ j, s.calls.length ≤ j → j < s'.calls.length →
      s'.shared.atStart j scope = some row := by
  induction hlater with
  | refl => exact ⟨hrow, fun j hle hlt => absurd hlt (by omega)⟩
  | @tail a b hlater hstep ih =>
    obtain ⟨move, -, happly⟩ := hstep
    obtain ⟨hkept, hfound⟩ := ih
    cases move with
    | environment e => cases e
    | start params =>
      cases happly
      refine ⟨hkept, fun j hle hlt => ?_⟩
      show Function.update a.shared.atStart a.calls.length a.shared.rows j scope = some row
      rw [List.length_append, List.length_singleton] at hlt
      by_cases hj : j = a.calls.length
      · rw [hj, Function.update_self, hkept]
      · rw [Function.update_of_ne hj]
        exact hfound j hle (by omega)
    | step i m =>
      obtain ⟨params, r, next, hcall, rfl⟩ := System.apply_step happly
      have hcompatible := idempotency_compatible (J := J) (E := E) hashBody
      have hgood := Good.of_reachable hcompatible OneRun.start (h.later hlater)
      have hguar := hgood.asks hcompatible hcall trivial (m := m) trivial
      refine ⟨(hguar.others (i + 1) (by omega)).completed scope row hkept hcompleted,
        fun j hle hlt => ?_⟩
      show (perform i r m a.shared).2.atStart j scope = some row
      rw [atStart_perform]
      exact hfound j hle (by rwa [List.length_set] at hlt)

/-- **Idempotency keys**, over all interleavings. -/
theorem idempotent (h : (system hashBody).Reachable overlapping start s) :
    Idempotent hashBody s ∧ ∀ s', (system hashBody).Later overlapping s s' → Repeats s s' := by
  have hcompatible := idempotency_compatible (J := J) (E := E) hashBody
  have hgood := Good.of_reachable hcompatible OneRun.start h
  refine ⟨⟨hgood.invariant.length_le, ?_, ?_, ?_, ?_, fun i params feed n result hrow houtcome =>
    execute_alone hrow i houtcome⟩, ?_⟩
  · intro i params result hcall
    have hstored : Stored hashBody i params result s.shared :=
      (hgood.done hcompatible hcall trivial).stored
    obtain ⟨row, response, hrow, -, hresponse, hsame, howner⟩ := hstored
    refine ⟨(hgood.done hcompatible hcall trivial).stored, row.owner, ?_, howner⟩
    rw [← hsame]
    exact hgood.invariant.completed _ row response hrow hresponse
  · intro i params result row response first program hcall hrow hresponse hfirst hbody
    have hpost := hgood.done hcompatible hcall trivial
    have hkept := hgood.invariant.remembered i params.toScope row hrow (by simp [hresponse])
    have hhash : row.requestHash = hashBody params.requestBody := by
      obtain ⟨first', program', hfirst', -, hhash⟩ := owner_call h hkept
      rw [hfirst] at hfirst'
      cases hfirst'
      rw [hhash, hbody]
    refine ⟨?_, hgood.invariant.completed _ row response hkept hresponse⟩
    cases result with
    | ok executed =>
      exact congrArg Except.ok (hpost.repeated row response hrow hresponse hhash)
    | error e => exact absurd hhash (hpost.other row hrow (by simp [hresponse]))
  · intro i params scope next hcall
    obtain ⟨m⟩ := moment_of_handler h hcall
    exact (hgood.asks hcompatible hcall trivial (m := m) trivial).asked
  · intro i params error hcall
    exact (hgood.done hcompatible hcall trivial).idle
  · intro s' hlater i j params params' result result' hcall hj hcall' hscope hbody
    have hstored : Stored hashBody i params result s.shared :=
      (hgood.done hcompatible hcall trivial).stored
    obtain ⟨row, response, hrow, hhash, hresponse, hsame, -⟩ := hstored
    have hlt := (List.getElem?_eq_some_iff.1 hcall').1
    have hfound := (completed_later h hlater hrow (by simp [hresponse])).2 j hj hlt
    have hpost := (Good.of_reachable hcompatible OneRun.start (h.later hlater)).done hcompatible
      hcall' trivial
    rw [← hscope] at hfound
    rw [← hbody] at hhash
    cases result' with
    | ok executed =>
      rw [← hsame]
      exact congrArg Except.ok (hpost.repeated row response hfound hresponse hhash)
    | error e => exact absurd hhash (hpost.other row hfound (by simp [hresponse]))

end Runs

/-! ## A retried request -/

namespace Retried

/-- The digests of the two bodies below. -/
def hashBody (body : String) : String :=
  if body = "\x7b\"amount\":\"5\"\x7d" then
    "b895f26d5b1d91f5e07ecc7d79b3bbfea394b9d9666e303a5a902b4f8b57c1f4"
  else
    "93dd83503f92967c960044faf3edb488b5f7c99bbd47e6e34f04a2d3386e00a8"

def params (body : String) : Params String := ⟨⟨"m", "POST /v1/invoices", "key_1"⟩, body, none⟩

def step (i : Nat) : Move (Params String) (Moment String String) Empty :=
  .step i ⟨0, .ok ⟨201, "\x7b\"id\":\"inv_1\"\x7d"⟩⟩

/-- The handler of the first call throws while a second one is turned away; the third succeeds. -/
def moves : List (Move (Params String) (Moment String String) Empty) :=
  let five := params "\x7b\"amount\":\"5\"\x7d"
  [.start five, .start five, step 0, step 1, step 0, step 1, .step 0 ⟨0, .error "timeout"⟩, step 0,
    .start five, step 2, step 2, step 2, step 2]

/-- The fourth repeats it, and the last comes with another body. -/
def laterMoves : List (Move (Params String) (Moment String String) Empty) :=
  [.start (params "\x7b\"amount\":\"5\"\x7d"), step 3,
    .start (params "\x7b\"amount\":\"6\"\x7d"), step 4]

theorem idempotent_retried :
    let s := (system hashBody).after moves start
    (∀ scope, (runsOf scope s.shared.runs).length ≤ 1) ∧
      runsOf (params "").toScope s.shared.runs =
        [⟨2, (params "").toScope, ⟨201, "\x7b\"id\":\"inv_1\"\x7d"⟩⟩] ∧
      Repeats s ((system hashBody).onward laterMoves s) ∧
      (((system hashBody).onward laterMoves s).calls[3]?.map (·.2)) =
        some (.done (.ok ⟨⟨201, "\x7b\"id\":\"inv_1\"\x7d"⟩, true⟩)) := by
  have hrun : (system hashBody).Reachable overlapping start ((system hashBody).after moves start) :=
    System.reachable_after (by decide +kernel)
  obtain ⟨hstate, hlater⟩ := idempotent hrun
  have hrepeats : Repeats ((system hashBody).after moves start)
      ((system hashBody).onward laterMoves ((system hashBody).after moves start)) :=
    hlater _ (System.later_onward (by decide +kernel))
  refine ⟨hstate.once, ?_, hrepeats, ?_⟩
  · obtain ⟨-, owner, hruns, howner⟩ := hstate.stored 2 (params "\x7b\"amount\":\"5\"\x7d") _ rfl
    rw [← howner rfl]
    exact hruns
  · exact congrArg (fun result => some (Program.done result))
      (hrepeats 2 3 (params "\x7b\"amount\":\"5\"\x7d") _ _ _ rfl (by decide) rfl rfl rfl)

end Retried

end IdempotencyService

end PaymentGateway
