import Mathlib.Data.Fintype.Card
import PaymentGateway.Lib.Lockstep

/-!
# Redaction

`redact` copies a value for the log. It goes through objects and arrays, puts a constant for
whatever stands under a sensitive key, cuts off at a depth, and prints an object that it has met
before as circular. The set of the objects it has met is shared by the whole walk.

**Theorem (`redact_noninterference`).** Two graphs that are the same but for what stands under
sensitive keys give the same result; and the walk ends on every graph.

Both graphs may use addresses of their own. They are the same along a correspondence of the objects
that are reached without passing a sensitive key (`SameGraph`), one to one, so that an object has
been met in one walk exactly when its counterpart has in the other (`SameSeen`). Under that relation
the walks agree step by step (`walk_agree`). A walk ends because each object it goes into is one
that it had not met (`walk_terminates`).
-/

namespace PaymentGateway

open Lockstep

/-! ## Texts -/

structure RegExp where
  source : String
  flags : String
  deriving DecidableEq, Repr

/-- What the language does with texts. -/
structure TextFunctions where
  test : RegExp → String → Bool
  /-- `value.replace(pattern, replacement)`. -/
  replace : RegExp → String → String → String
  split : RegExp → String → List String
  trim : String → String
  toLowerCase : String → String

namespace Redaction

def redacted : String := "[REDACTED]"

/-- Field names whose values never appear in logs. -/
def sensitiveKeyPatterns : List RegExp := [
  ⟨"pass(word|phrase)", "i"⟩, ⟨"secret", "i"⟩, ⟨"token", "i"⟩, ⟨"api[-_]?key", "i"⟩,
  ⟨"private[-_]?key", "i"⟩, ⟨"seed", "i"⟩, ⟨"mnemonic", "i"⟩, ⟨"credential", "i"⟩,
  ⟨"authorization", "i"⟩, ⟨"cookie", "i"⟩, ⟨"session", "i"⟩, ⟨"signature", "i"⟩, ⟨"^pin$", "i"⟩,
  ⟨"^otp$", "i"⟩, ⟨"mfa", "i"⟩, ⟨"xpriv|xprv", "i"⟩]

/-- Value shapes that are credentials no matter what field they arrived in. -/
def sensitiveValuePatterns : List RegExp := [
  ⟨"\\bpk_(live|test)_[A-Za-z0-9_-]\x7b8,\x7d\\.[A-Za-z0-9_-]\x7b32,\x7d", ""⟩,
  ⟨"\\bwhsec_[A-Za-z0-9_-]\x7b32,\x7d", ""⟩,
  ⟨"\\bey[A-Za-z0-9_-]\x7b10,\x7d\\.[A-Za-z0-9_-]\x7b10,\x7d\\.[A-Za-z0-9_-]\x7b10,\x7d", ""⟩,
  ⟨"\\b(xprv|yprv|zprv|tprv)[A-Za-z0-9]\x7b50,\x7d", ""⟩,
  ⟨"\\b0x[a-fA-F0-9]\x7b64\x7d\\b(?=.*(?:priv|secret|key))", "i"⟩,
  ⟨"-----BEGIN [A-Z ]*PRIVATE KEY-----", ""⟩]

section Text

variable (text : TextFunctions)

def isSensitiveKey (key : String) : Bool := sensitiveKeyPatterns.any fun p => text.test p key

def redactString (value : String) : String :=
  sensitiveValuePatterns.foldl (fun output p =>
    text.replace ⟨p.source, "g" ++ p.flags⟩ redacted output) value

/-- Twelve to twenty-four lowercase words. -/
def looksLikeMnemonic (value : String) : Bool :=
  let words := text.split ⟨"\\s+", ""⟩ (text.trim value)
  if words.length < 12 ∨ words.length > 24 then false
  else words.all (text.test ⟨"^[a-z]\x7b3,8\x7d$", ""⟩)

/-! ## Graphs -/

/-- A value that has no other values in it. -/
inductive Leaf (ν : Type)
  | null
  | undefined
  | string (value : String)
  | number (value : ν)
  | boolean (value : Bool)
  | bigint (value : Int)
  | function
  | symbol
  /-- A date, by its ISO text when it is valid. -/
  | date (iso : Option String)
  | error (name message : String)
  | buffer (length : Nat)

inductive Value (ν α : Type)
  | leaf (leaf : Leaf ν)
  /-- The object or array at an address. -/
  | ref (address : α)

inductive Cell (ν α : Type)
  | array (items : List (Value ν α))
  | object (entries : List (String × Value ν α))

/-- What `redact` returns. An object is what is assigned to it, in order. -/
inductive Redacted (ν : Type)
  | null
  | undefined
  | string (value : String)
  | number (value : ν)
  | boolean (value : Bool)
  | array (items : List (Redacted ν))
  | object (assignments : List (String × Redacted ν))

inductive Halt
  /-- `toISOString` of an invalid date. -/
  | rangeError
  | outOfFuel
  deriving DecidableEq, Repr

/-- A bound on depths; a fraction counts as its floor. -/
inductive MaxDepth
  /-- `Infinity`, or `NaN`. -/
  | unbounded
  | levels (bound : Int)
  deriving DecidableEq, Repr

/-- `depth > maxDepth`. -/
def MaxDepth.exceededBy (depth : Nat) : MaxDepth → Bool
  | .unbounded => false
  | .levels bound => bound < depth

structure RedactOptions where
  maxDepth : Option MaxDepth := none
  additionalKeys : Option (List String) := none

/-- Whether what stands under a key is replaced. -/
def hides (options : RedactOptions) (key : String) : Bool :=
  let extraKeys := (options.additionalKeys.getD []).map text.toLowerCase
  isSensitiveKey text key || extraKeys.contains (text.toLowerCase key)

variable {ν α β : Type}

def redactLeaf : Leaf ν → Except Halt (Redacted ν)
  | .null => .ok .null
  | .undefined => .ok .undefined
  | .string value =>
    .ok (.string (if looksLikeMnemonic text value then redacted else redactString text value))
  | .number value => .ok (.number value)
  | .boolean value => .ok (.boolean value)
  | .bigint value => .ok (.string (toString value))
  | .function => .ok (.string "[Function]")
  | .symbol => .ok (.string "[Symbol]")
  | .date none => .error .rangeError
  | .date (some iso) => .ok (.string iso)
  | .error name message =>
    .ok (.object [("name", .string name), ("message", .string (redactString text message))])
  | .buffer length => .ok (.string ("[Buffer " ++ toString length ++ "]"))

/-- One field of an object, by the walk over values. -/
def redactEntry (options : RedactOptions)
    (walk : Value ν α → Finset α → Except Halt (Redacted ν × Finset α))
    (entry : String × Value ν α) (seen : Finset α) :
    Except Halt ((String × Redacted ν) × Finset α) :=
  if hides text options entry.1 then .ok ((entry.1, .string redacted), seen)
  else mapResult (entry.1, ·) (walk entry.2 seen)

/-- The walk, so many levels deep. -/
def walk [DecidableEq α] (options : RedactOptions) (graph : α → Cell ν α) :
    Nat → Nat → Value ν α → Finset α → Except Halt (Redacted ν × Finset α)
  | 0, _, _, _ => .error .outOfFuel
  | fuel + 1, depth, input, seen =>
    if (options.maxDepth.getD (.levels 8)).exceededBy depth then
      .ok (.string "[MAX_DEPTH]", seen)
    else
      match input with
      | .leaf leaf => (redactLeaf text leaf).map (·, seen)
      | .ref address =>
        if address ∈ seen then .ok (.string "[Circular]", seen)
        else
          match graph address with
          | .array items =>
            mapResult .array (traverse (walk options graph fuel (depth + 1)) items
              (insert address seen))
          | .object entries =>
            mapResult .object (traverse
              (redactEntry text options (walk options graph fuel (depth + 1))) entries
              (insert address seen))

/-- A walk goes into each object once, so it is at most so many levels deep. -/
def redact [DecidableEq α] [Fintype α] (options : RedactOptions) (graph : α → Cell ν α)
    (value : Value ν α) : Except Halt (Redacted ν) :=
  (walk text options graph (Fintype.card α + 1) 0 value ∅).map (·.1)

/-! ## The walk ends -/

theorem redactLeaf_ne (leaf : Leaf ν) : redactLeaf text leaf ≠ .error .outOfFuel := by
  cases leaf with
  | date iso => cases iso <;> exact nofun
  | _ => exact nofun

variable {text} {options : RedactOptions} {graph : α → Cell ν α} {graph' : β → Cell ν β}

section Ends

variable [DecidableEq α] {fuel depth : Nat} {input : Value ν α} {seen seen' : Finset α} {r : Redacted ν}

theorem walk_leaf (leaf : Leaf ν) : walk text options graph (fuel + 1) depth (.leaf leaf) seen =
    if (options.maxDepth.getD (.levels 8)).exceededBy depth then
      .ok (.string "[MAX_DEPTH]", seen)
    else (redactLeaf text leaf).map (·, seen) := rfl

/-- The objects that are gone into: neither too deep nor met before. -/
theorem walk_ref (address : α) : walk text options graph (fuel + 1) depth (.ref address) seen =
    if (options.maxDepth.getD (.levels 8)).exceededBy depth then
      .ok (.string "[MAX_DEPTH]", seen)
    else if address ∈ seen then .ok (.string "[Circular]", seen)
    else
      match graph address with
      | .array items => mapResult .array (traverse (walk text options graph fuel (depth + 1)) items
          (insert address seen))
      | .object entries => mapResult .object (traverse
          (redactEntry text options (walk text options graph fuel (depth + 1))) entries
          (insert address seen)) := rfl

omit [DecidableEq α] in
theorem redactEntry_grows {walk : Value ν α → Finset α → Except Halt (Redacted ν × Finset α)}
    {entry : String × Value ν α} {p : String × Redacted ν}
    (h : redactEntry text options walk entry seen = .ok (p, seen'))
    (hwalk : ∀ r, walk entry.2 seen = .ok (r, seen') → seen ⊆ seen') : seen ⊆ seen' := by
  unfold redactEntry at h
  split at h
  · cases h
    exact subset_rfl
  · obtain ⟨r, hr⟩ := of_mapResult_eq_ok h
    exact hwalk r hr

/-- What a walk has met stays met. -/
theorem walk_grows (h : walk text options graph fuel depth input seen = .ok (r, seen')) :
    seen ⊆ seen' := by
  induction fuel generalizing depth input seen seen' r with
  | zero => cases h
  | succ fuel ih =>
    cases input with
    | leaf leaf =>
      rw [walk_leaf] at h
      split at h
      · cases h
        exact subset_rfl
      · cases hleaf : redactLeaf text leaf with
        | error e =>
          rw [hleaf] at h
          cases h
        | ok r' =>
          rw [hleaf] at h
          cases h
          exact subset_rfl
    | ref address =>
      have hinsert : seen ⊆ insert address seen := Finset.subset_insert address seen
      rw [walk_ref] at h
      split at h
      · cases h
        exact subset_rfl
      · split at h
        · cases h
          exact subset_rfl
        · split at h
          · obtain ⟨rs, hrs⟩ := of_mapResult_eq_ok h
            exact traverse_keeps (fun item _ s r s' (hs : seen ⊆ s) hok => hs.trans (ih hok))
              hinsert hrs
          · obtain ⟨rs, hrs⟩ := of_mapResult_eq_ok h
            exact traverse_keeps (fun entry _ s r s' (hs : seen ⊆ s) hok =>
              hs.trans (redactEntry_grows hok fun r' hr' => ih hr')) hinsert hrs

/-- A walk that may go as deep as there are objects to meet does not run out. -/
theorem walk_terminates [Fintype α] (h : seenᶜ.card < fuel) :
    walk text options graph fuel depth input seen ≠ .error .outOfFuel := by
  induction fuel generalizing depth input seen with
  | zero => exact absurd h (Nat.not_lt_zero _)
  | succ fuel ih =>
    cases input with
    | leaf leaf =>
      rw [walk_leaf]
      split
      · exact nofun
      · have hleaf := redactLeaf_ne text leaf
        cases hr : redactLeaf text leaf with
        | error e =>
          rw [hr] at hleaf
          intro h
          cases h
          exact hleaf rfl
        | ok r => exact nofun
    | ref address =>
      rw [walk_ref]
      split
      · exact nofun
      · split
        · exact nofun
        · next hnew =>
          -- Whatever is met from here on, the object itself is no longer left to meet.
          have hfewer : ∀ s : Finset α, insert address seen ⊆ s → sᶜ.card < fuel := by
            intro s hs
            have hsub : sᶜ ⊂ seenᶜ := by
              refine Finset.ssubset_iff_subset_ne.2 ⟨?_, ?_⟩
              · exact Finset.compl_subset_compl.2 ((Finset.subset_insert address seen).trans hs)
              · intro heq
                have hmem : address ∈ sᶜ := by
                  rw [heq]
                  exact Finset.mem_compl.2 hnew
                exact Finset.mem_compl.1 hmem (hs (Finset.mem_insert_self address seen))
            have hlt := Finset.card_lt_card hsub
            omega
          have hself : insert address seen ⊆ insert address seen := subset_rfl
          split
          · rw [Ne, mapResult_eq_error]
            exact traverse_ne_error (fun item _ s r s' hs hok => hs.trans (walk_grows hok))
              (fun item _ s hs => ih (hfewer s hs)) hself
          · rw [Ne, mapResult_eq_error]
            refine traverse_ne_error (fun entry _ s r s' (hs : insert address seen ⊆ s) hok => ?_)
              (fun entry _ s hs => ?_) hself
            · exact hs.trans (redactEntry_grows hok fun r' hr' => walk_grows hr')
            · unfold redactEntry
              split
              · exact nofun
              · rw [Ne, mapResult_eq_error]
                exact ih (hfewer s hs)

/-- Where a walk does not run out, one that may go deeper is the same. -/
theorem walk_succ (h : walk text options graph fuel depth input seen ≠ .error .outOfFuel) :
    walk text options graph (fuel + 1) depth input seen =
      walk text options graph fuel depth input seen := by
  induction fuel generalizing depth input seen with
  | zero => exact absurd rfl h
  | succ fuel ih =>
    cases input with
    | leaf leaf => rfl
    | ref address =>
      rw [walk_ref] at h ⊢
      rw [walk_ref]
      split
      · rfl
      · next hdepth =>
        split
        · rfl
        · next hnew =>
          rw [if_neg hdepth, if_neg hnew] at h
          cases hcell : graph address with
          | array items =>
            rw [hcell] at h
            dsimp only at h ⊢
            rw [Ne, mapResult_eq_error] at h
            rw [traverse_eq (fun item _ s hs => ih hs) h]
          | object entries =>
            rw [hcell] at h
            dsimp only at h ⊢
            rw [Ne, mapResult_eq_error] at h
            rw [traverse_eq (fun entry _ s hs => ?_) h]
            unfold redactEntry at hs ⊢
            split
            · rfl
            · next hkey =>
              rw [if_neg hkey, Ne, mapResult_eq_error] at hs
              rw [ih hs]

/-- Depth beyond what `redact` allows changes nothing. -/
theorem walk_add (h : walk text options graph fuel depth input seen ≠ .error .outOfFuel)
    (more : Nat) : walk text options graph (fuel + more) depth input seen =
      walk text options graph fuel depth input seen := by
  induction more with
  | zero => rfl
  | succ more ih =>
    have hne : walk text options graph (fuel + more) depth input seen ≠ .error .outOfFuel := by
      rw [ih]
      exact h
    rw [← Nat.add_assoc, walk_succ hne, ih]

theorem walk_ends [Fintype α] (graph : α → Cell ν α) (value : Value ν α) :
    walk text options graph (Fintype.card α + 1) 0 value ∅ ≠ .error .outOfFuel := by
  refine walk_terminates ?_
  rw [Finset.compl_empty, Finset.card_univ]
  exact Nat.lt_succ_self _

theorem redact_eq [Fintype α] (graph : α → Cell ν α) (value : Value ν α) (more : Nat) :
    redact text options graph value =
      (walk text options graph (Fintype.card α + 1 + more) 0 value ∅).map (·.1) := by
  rw [redact, walk_add (walk_ends graph value) more]

end Ends

/-! ## Two graphs -/

section Two

variable {R : α → β → Prop} {sensitive : String → Bool}

inductive SameValue (R : α → β → Prop) : Value ν α → Value ν β → Prop
  | leaf (leaf : Leaf ν) : SameValue R (.leaf leaf) (.leaf leaf)
  | ref {a : α} {b : β} : R a b → SameValue R (.ref a) (.ref b)

/-- The same key, and unless it is sensitive the same value. -/
def SameEntry (sensitive : String → Bool) (R : α → β → Prop) (entry : String × Value ν α)
    (entry' : String × Value ν β) : Prop :=
  entry.1 = entry'.1 ∧ (sensitive entry.1 = false → SameValue R entry.2 entry'.2)

inductive SameCell (sensitive : String → Bool) (R : α → β → Prop) : Cell ν α → Cell ν β → Prop
  | array {items : List (Value ν α)} {items' : List (Value ν β)} :
      List.Forall₂ (SameValue R) items items' → SameCell sensitive R (.array items) (.array items')
  | object {entries : List (String × Value ν α)} {entries' : List (String × Value ν β)} :
      List.Forall₂ (SameEntry sensitive R) entries entries' →
      SameCell sensitive R (.object entries) (.object entries')

/-- The graphs are the same along a correspondence of their objects, one to one, but for what stands
under sensitive keys. -/
structure SameGraph (sensitive : String → Bool) (graph : α → Cell ν α) (graph' : β → Cell ν β)
    (R : α → β → Prop) : Prop where
  left_unique : ∀ a b b', R a b → R a b' → b = b'
  right_unique : ∀ a a' b, R a b → R a' b → a = a'
  cell : ∀ a b, R a b → SameCell sensitive R (graph a) (graph' b)

/-- Corresponding objects have both been met or neither. -/
def SameSeen (R : α → β → Prop) (seen : Finset α) (seen' : Finset β) : Prop :=
  ∀ a b, R a b → (a ∈ seen ↔ b ∈ seen')

variable [DecidableEq α] [DecidableEq β]

theorem SameSeen.insert {graph : α → Cell ν α} {graph' : β → Cell ν β}
    (h : SameGraph sensitive graph graph' R) {seen : Finset α} {seen' : Finset β}
    (hseen : SameSeen R seen seen') {a : α} {b : β} (hab : R a b) :
    SameSeen R (insert a seen) (insert b seen') := by
  intro x y hxy
  have hiff : x = a ↔ y = b := by
    constructor
    · rintro rfl
      exact h.left_unique x y b hxy hab
    · rintro rfl
      exact h.right_unique x a y hxy hab
  rw [Finset.mem_insert, Finset.mem_insert, hiff, hseen x y hxy]

/-- Walks over values that are the same agree. -/
theorem walk_agree {graph : α → Cell ν α} {graph' : β → Cell ν β}
    (h : SameGraph (hides text options) graph graph' R) {fuel depth : Nat} {input : Value ν α}
    {input' : Value ν β} (hinput : SameValue R input input') {seen : Finset α} {seen' : Finset β}
    (hseen : SameSeen R seen seen') :
    Agree (SameSeen R) (walk text options graph fuel depth input seen)
      (walk text options graph' fuel depth input' seen') := by
  induction fuel generalizing depth input input' seen seen' with
  | zero => exact rfl
  | succ fuel ih =>
    cases hinput with
    | leaf leaf =>
      rw [walk_leaf, walk_leaf]
      split
      · exact ⟨rfl, hseen⟩
      · cases redactLeaf text leaf with
        | error e => exact rfl
        | ok r => exact ⟨rfl, hseen⟩
    | @ref a b hab =>
      rw [walk_ref, walk_ref]
      by_cases hmem : a ∈ seen
      · have hmem' : b ∈ seen' := (hseen a b hab).1 hmem
        rw [if_pos hmem, if_pos hmem']
        split <;> exact ⟨rfl, hseen⟩
      · have hmem' : b ∉ seen' := fun hb => hmem ((hseen a b hab).2 hb)
        rw [if_neg hmem, if_neg hmem']
        split
        · exact ⟨rfl, hseen⟩
        · have hcell := h.cell a b hab
          generalize graph a = cell at hcell
          generalize graph' b = cell' at hcell
          have hnext := hseen.insert h hab
          cases hcell with
          | array hitems =>
            refine (traverse_agree (fun item item' s s' hxy hs => ?_) hitems hnext).mapResult _
            exact ih hxy hs
          | object hentries =>
            refine (traverse_agree (fun entry entry' s s' hxy hs => ?_) hentries hnext).mapResult _
            obtain ⟨hkey, hvalue⟩ := hxy
            unfold redactEntry
            rw [← hkey]
            cases hhides : hides text options entry.1 with
            | true => exact ⟨rfl, hs⟩
            | false => exact (ih (hvalue hhides) hs).mapResult _

end Two

/-! ## Non-interference -/

/-- Nothing of what stands under a sensitive key can be seen in the result, and there always is a
result. -/
theorem redact_noninterference (text : TextFunctions) (options : RedactOptions) :
    (∀ (α : Type) [DecidableEq α] [Fintype α] (graph : α → Cell ν α) (value : Value ν α),
      redact text options graph value ≠ .error .outOfFuel) ∧
    ∀ (α β : Type) [DecidableEq α] [Fintype α] [DecidableEq β] [Fintype β] (graph : α → Cell ν α)
      (graph' : β → Cell ν β) (R : α → β → Prop) (value : Value ν α) (value' : Value ν β),
      SameGraph (hides text options) graph graph' R → SameValue R value value' →
      redact text options graph value = redact text options graph' value' := by
  constructor
  · intro α _ _ graph value h
    have hwalk : walk text options graph (Fintype.card α + 1) 0 value ∅ ≠ .error .outOfFuel :=
      walk_ends graph value
    unfold redact at h
    cases hr : walk text options graph (Fintype.card α + 1) 0 value ∅ with
    | error e =>
      rw [hr] at h hwalk
      cases h
      exact hwalk rfl
    | ok p =>
      rw [hr] at h
      cases h
  · intro α β _ _ _ _ graph graph' R value value' hgraph hvalue
    rw [redact_eq graph value (Fintype.card β + 1), redact_eq graph' value' (Fintype.card α + 1),
      Nat.add_comm (Fintype.card β + 1)]
    have hnone : SameSeen R (∅ : Finset α) (∅ : Finset β) := by simp [SameSeen]
    exact (walk_agree hgraph hvalue hnone).result_eq

/-- The text functions on texts that no pattern but the first matches. -/
def plainText : TextFunctions where
  test := fun p key => decide (p.source = "pass(word|phrase)" ∧ key = "password")
  replace := fun _ _ value => value
  split := fun _ value => [value]
  trim := id
  toLowerCase := id

/-- An object that holds itself, and a password. -/
def loginGraph (password : Value Nat (Fin 2)) : Fin 2 → Cell Nat (Fin 2)
  | 0 => .object [("password", password), ("self", .ref 0), ("attempts", .ref 1)]
  | 1 => .array [.leaf (.number 3), .ref 0]

/-- A text and a whole object under `password` give the same result. -/
theorem redact_noninterference_login :
    redact plainText {} (loginGraph (.leaf (.string "hunter2"))) (.ref 0) =
      redact plainText {} (loginGraph (.ref 1)) (.ref 0) := by
  refine (redact_noninterference plainText {}).2 (Fin 2) (Fin 2) _ _ (fun a b => a = b) (.ref 0)
    (.ref 0) ⟨?_, ?_, ?_⟩ (.ref rfl)
  · rintro a b b' rfl rfl
    rfl
  · rintro a a' b rfl rfl
    rfl
  · rintro a _ rfl
    have hhides : hides plainText {} "password" = true := by decide
    match a with
    | 0 =>
      refine .object (.cons ⟨rfl, fun h => ?_⟩ (.cons ⟨rfl, fun _ => .ref rfl⟩
        (.cons ⟨rfl, fun _ => .ref rfl⟩ .nil)))
      rw [hhides] at h
      cases h
    | 1 => exact .array (.cons (.leaf _) (.cons (.ref rfl) .nil))

end Text

end Redaction

end PaymentGateway
