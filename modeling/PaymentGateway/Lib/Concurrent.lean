import Mathlib.Logic.Relation
import PaymentGateway.Lib.Execution
import PaymentGateway.Lib.Program

/-!
# Calls that share a state

A `System` runs any number of calls on one shared state. A call is a program; a step of it performs
its next request, in a moment that says how the world answers, and goes on with the answer. Steps of
different calls follow one another in any order, new calls start at any time, and what is outside
of the calls changes the state as well. A call that is never given another step has crashed.

`Rules` says which runs are considered: which calls may start, which of them may still take a step
(`live`: all of them, or only the one started last), and what is asked of a step and of the
environment.

**Theorem (`Good.of_reachable`).** Let every program keep the invariant and its guarantee as long as
the others keep to what it relies on (`Program.Triple`), and let the guarantee of each be something
the others rely on. Then in every reachable state the invariant holds, and every live call is
`Safe`; so a call that is done has its postcondition.
-/

namespace Concurrent

open Transactional

/-- Programs over a shared state. `enter` notes that a call begins. -/
structure System (Req : Type) (Ans : Req → Type) (ε α L μ ν σ : Type) where
  code : L → Program Req Ans ε α
  perform : Nat → (r : Req) → μ → σ → Except ε (Ans r) × σ
  enter : Nat → L → σ → σ
  environment : ν → σ → σ

variable {Req : Type} {Ans : Req → Type} {ε α L μ ν σ : Type}

/-- The shared state, and the calls in the order in which they started. -/
structure State (Req : Type) (Ans : Req → Type) (ε α L σ : Type) where
  shared : σ
  calls : List (L × Program Req Ans ε α)

inductive Move (L μ ν : Type)
  | start (call : L)
  | step (i : Nat) (moment : μ)
  | environment (event : ν)

/-- The runs to be considered. -/
structure Rules (Req : Type) (Ans : Req → Type) (ε α L μ ν σ : Type) where
  starts : L → State Req Ans ε α L σ → Prop
  live : Nat → Nat → Prop
  steps : Nat → Req → μ → σ → Prop
  happens : ν → σ → Prop

def Rules.meets (R : Rules Req Ans ε α L μ ν σ) :
    Move L μ ν → State Req Ans ε α L σ → Prop
  | .start l, s => R.starts l s
  | .step i m, s =>
    match s.calls[i]? with
    | some (_, .request r _) => R.live s.calls.length i ∧ R.steps i r m s.shared
    | _ => True
  | .environment e, s => R.happens e s.shared

instance (R : Rules Req Ans ε α L μ ν σ) [∀ l s, Decidable (R.starts l s)]
    [∀ n i, Decidable (R.live n i)] [∀ i r m s, Decidable (R.steps i r m s)]
    [∀ e s, Decidable (R.happens e s)] (move : Move L μ ν) (s : State Req Ans ε α L σ) :
    Decidable (R.meets move s) :=
  match move with
  | .start l => inferInstanceAs (Decidable (R.starts l s))
  | .environment e => inferInstanceAs (Decidable (R.happens e s.shared))
  | .step i m =>
    match hcall : s.calls[i]? with
    | some (_, .request r _) =>
      decidable_of_iff (R.live s.calls.length i ∧ R.steps i r m s.shared)
        (by simp only [Rules.meets, hcall])
    | some (_, .done _) => isTrue (by simp only [Rules.meets, hcall])
    | none => isTrue (by simp only [Rules.meets, hcall])

/-- All runs in which the steps meet a condition. -/
abbrev Rules.asking (steps : Req → μ → σ → Prop) : Rules Req Ans ε α L μ ν σ where
  starts _ _ := True
  live _ _ := True
  steps _ := steps
  happens _ _ := True

/-- All runs. -/
abbrev Rules.interleaved : Rules Req Ans ε α L μ ν σ := .asking fun _ _ _ => True

instance (steps : Req → μ → σ → Prop) [∀ r m s, Decidable (steps r m s)] (move : Move L μ ν)
    (s : State Req Ans ε α L σ) :
    Decidable ((Rules.asking steps : Rules Req Ans ε α L μ ν σ).meets move s) :=
  inferInstance

/-- The runs among them in which the steps meet one more condition. -/
def Rules.also (R : Rules Req Ans ε α L μ ν σ) (steps : Req → μ → σ → Prop) :
    Rules Req Ans ε α L μ ν σ :=
  { R with steps := fun i r m s => R.steps i r m s ∧ steps r m s }

theorem Rules.also_meets {R : Rules Req Ans ε α L μ ν σ} {steps : Req → μ → σ → Prop}
    {move : Move L μ ν} {s : State Req Ans ε α L σ} :
    (R.also steps).meets move s ↔ R.meets move s ∧ (Rules.asking steps).meets move s := by
  cases move with
  | start l => simp [meets, also]
  | environment e => simp [meets, also]
  | step i m =>
    simp only [meets, also]
    split
    · simp only [true_and, and_assoc]
    · simp only [and_self]

instance (R : Rules Req Ans ε α L μ ν σ) (steps : Req → μ → σ → Prop) (move : Move L μ ν)
    (s : State Req Ans ε α L σ) [Decidable (R.meets move s)] [∀ r m s, Decidable (steps r m s)] :
    Decidable ((R.also steps).meets move s) :=
  decidable_of_iff _ Rules.also_meets.symm

namespace System

variable (S : System Req Ans ε α L μ ν σ)

/-- One move. A call that is done, or has not started, takes no step. -/
def apply : Move L μ ν → State Req Ans ε α L σ → Except Unit (State Req Ans ε α L σ)
  | .start l, s =>
    .ok ⟨S.enter s.calls.length l s.shared, s.calls ++ [(l, S.code l)]⟩
  | .step i m, s =>
    match s.calls[i]? with
    | some (l, .request r next) =>
      .ok ⟨(S.perform i r m s.shared).2,
        s.calls.set i (l, next (S.perform i r m s.shared).1)⟩
    | _ => .error ()
  | .environment e, s => .ok { s with shared := S.environment e s.shared }

def machine : Machine (State Req Ans ε α L σ) Unit (Move L μ ν) (Move L μ ν) where
  apply := S.apply
  script move _ := [.ok move]

/-- What runs under the rules come to. -/
def Reachable (R : Rules Req Ans ε α L μ ν σ) (init : σ) (s : State Req Ans ε α L σ) : Prop :=
  S.machine.Reachable (fun _ => True) R.meets ⟨init, []⟩ s

variable {S} {R : Rules Req Ans ε α L μ ν σ}

theorem Reachable.start {init : σ} : S.Reachable R init ⟨init, []⟩ := Machine.reachable_init

/-- One more move. -/
theorem Reachable.next {init : σ} {s s' : State Req Ans ε α L σ} {move : Move L μ ν}
    (h : S.Reachable R init s) (hm : R.meets move s) (happly : S.apply move s = .ok s') :
    S.Reachable R init s' := by
  obtain ⟨past, rest, hist⟩ := h
  have hbegin : S.machine.History (fun _ => True) R.meets ⟨init, []⟩ (s :: past) [.ok move] :=
    .begin hist trivial
  exact ⟨s :: past, [], .commit hbegin hm happly⟩

/-- A run under rules is a run under weaker ones. -/
theorem Reachable.mono {R' : Rules Req Ans ε α L μ ν σ} {init : σ} {s : State Req Ans ε α L σ}
    (h : S.Reachable R init s) (hweaker : ∀ move a, R.meets move a → R'.meets move a) :
    S.Reachable R' init s :=
  Machine.Reachable.mono h hweaker

theorem Reachable.induction {P : State Req Ans ε α L σ → Prop} {init : σ}
    {s : State Req Ans ε α L σ} (h : S.Reachable R init s) (h0 : P ⟨init, []⟩)
    (hstep : ∀ move a b, S.Reachable R init a → P a → R.meets move a → S.apply move a = .ok b →
      P b) : P s := by
  have hboth : S.Reachable R init s ∧ P s := by
    have hstart : S.Reachable R init ⟨init, []⟩ ∧ P ⟨init, []⟩ := ⟨.start, h0⟩
    have hkind : ∀ move s, True → ∀ t, Except.ok t ∈ S.machine.script move s →
        (fun _ => True) t := fun _ _ _ _ _ => trivial
    refine Machine.Reachable.invariant (P := fun a => S.Reachable R init a ∧ P a) h hkind hstart ?_
    intro move a b _ ha hm happly
    exact ⟨ha.1.next hm happly, hstep move a b ha.1 ha.2 hm happly⟩
  exact hboth.2

/-- What a step of a call does. -/
theorem apply_step {i : Nat} {m : μ} {s s' : State Req Ans ε α L σ}
    (h : S.apply (.step i m) s = .ok s') : ∃ l r next,
      s.calls[i]? = some (l, .request r next) ∧
      s' = ⟨(S.perform i r m s.shared).2, s.calls.set i (l, next (S.perform i r m s.shared).1)⟩ := by
  simp only [apply] at h
  split at h
  · rename_i l r next hcall
    cases h
    exact ⟨l, r, next, hcall, rfl⟩
  · cases h

theorem meets_step {i : Nat} {m : μ} {s : State Req Ans ε α L σ} {l : L} {r : Req}
    {next : Except ε (Ans r) → Program Req Ans ε α} (hm : R.meets (.step i m) s)
    (hcall : s.calls[i]? = some (l, .request r next)) :
    R.live s.calls.length i ∧ R.steps i r m s.shared := by
  simpa only [Rules.meets, hcall] using hm

/-- What requests, starts and changes from outside keep. -/
structure Keeps (S : System Req Ans ε α L μ ν σ) (R : Rules Req Ans ε α L μ ν σ) (P : σ → Prop) :
    Prop where
  perform : ∀ i r m s, P s → R.steps i r m s → P (S.perform i r m s).2
  enter : ∀ n l s, P s → P (S.enter n l s)
  environment : ∀ e s, P s → R.happens e s → P (S.environment e s)

theorem Keeps.apply {P : σ → Prop} (h : Keeps S R P) {move : Move L μ ν}
    {s s' : State Req Ans ε α L σ} (hs : P s.shared) (hm : R.meets move s)
    (happly : S.apply move s = .ok s') : P s'.shared := by
  cases move with
  | start l =>
    cases happly
    exact h.enter _ _ _ hs
  | environment e =>
    cases happly
    exact h.environment e _ hs hm
  | step i m =>
    obtain ⟨l, r, next, hcall, rfl⟩ := apply_step happly
    exact h.perform i r m _ hs (meets_step hm hcall).2

theorem Keeps.reachable {P : σ → Prop} (h : Keeps S R P) {init : σ} {s : State Req Ans ε α L σ}
    (hs : S.Reachable R init s) (h0 : P init) : P s.shared :=
  hs.induction (P := fun s => P s.shared) h0 fun _ _ _ _ ha hm happly => h.apply ha hm happly

/-- What further moves under the rules lead to. -/
def Later (S : System Req Ans ε α L μ ν σ) (R : Rules Req Ans ε α L μ ν σ) :
    State Req Ans ε α L σ → State Req Ans ε α L σ → Prop :=
  Relation.ReflTransGen fun s s' => ∃ move, R.meets move s ∧ S.apply move s = .ok s'

theorem Reachable.later {init : σ} {s s' : State Req Ans ε α L σ} (h : S.Reachable R init s)
    (hlater : S.Later R s s') : S.Reachable R init s' := by
  induction hlater with
  | refl => exact h
  | tail _ hstep ih =>
    obtain ⟨move, hm, happly⟩ := hstep
    exact ih.next hm happly

/-- Where moves lead that are made one after the other. -/
def after (S : System Req Ans ε α L μ ν σ) (moves : List (Move L μ ν)) (init : σ) :
    State Req Ans ε α L σ :=
  (S.machine.log moves [⟨init, []⟩]).headD ⟨init, []⟩

theorem reachable_after {moves : List (Move L μ ν)} {init : σ}
    (h : S.machine.AllMeet R.meets moves ⟨init, []⟩) : S.Reachable R init (S.after moves init) :=
  Machine.reachable_log (fun _ _ => trivial) h

theorem after_mem (moves : List (Move L μ ν)) (init : σ) :
    S.after moves init ∈ S.machine.log moves [⟨init, []⟩] := by
  obtain ⟨s, past, hlog⟩ := Machine.log_eq_cons S.machine moves ⟨init, []⟩ []
  simp [after, hlog]

/-- Where moves lead from a state. -/
def onward (S : System Req Ans ε α L μ ν σ) (moves : List (Move L μ ν))
    (s : State Req Ans ε α L σ) : State Req Ans ε α L σ :=
  moves.foldl (fun s move => (S.machine.run move s).final s) s

theorem later_onward {moves : List (Move L μ ν)} {s : State Req Ans ε α L σ}
    (h : S.machine.AllMeet R.meets moves s) : S.Later R s (S.onward moves s) := by
  induction moves generalizing s with
  | nil => exact .refl
  | cons move moves ih =>
    refine Relation.ReflTransGen.trans ?_ (ih h.2)
    show S.Later R s ((S.machine.run move s).final s)
    have hm : R.meets move s := h.1.1
    cases happly : S.apply move s with
    | ok s' =>
      have hfinal : (S.machine.run move s).final s = s' := by
        simp [Machine.run, Machine.step, machine, happly, execAll, Execution.final]
      rw [hfinal]
      exact .single ⟨move, hm, happly⟩
    | error e =>
      have hfinal : (S.machine.run move s).final s = s := by
        simp [Machine.run, Machine.step, machine, happly, execAll, Execution.final]
      rw [hfinal]
      exact .refl

/-- Systems that perform the requests of a run alike. -/
theorem apply_congr {S' : System Req Ans ε α L μ ν σ} (hcode : S'.code = S.code)
    (henter : S'.enter = S.enter) (henvironment : S'.environment = S.environment)
    (hperform : ∀ i r m s, R.steps i r m s → S'.perform i r m s = S.perform i r m s)
    (move : Move L μ ν) (s : State Req Ans ε α L σ) (hm : R.meets move s) :
    S'.apply move s = S.apply move s := by
  cases move with
  | start l => simp only [apply, hcode, henter]
  | environment e => simp only [apply, henvironment]
  | step i m =>
    cases hcall : s.calls[i]? with
    | none => simp only [apply, hcall]
    | some call =>
      obtain ⟨l, program⟩ := call
      cases program with
      | done r => simp only [apply, hcall]
      | request r next =>
        simp only [apply, hcall, hperform i r m s.shared (meets_step hm hcall).2]

end System

/-! ## Rely and guarantee -/

variable (S : System Req Ans ε α L μ ν σ) (R : Rules Req Ans ε α L μ ν σ)
  (init : σ) (inv : σ → Prop) (rely : Nat → σ → σ → Prop)
  (guar : Nat → L → Req → σ → σ → Prop)

/-- The terms on which a call shares the state. -/
def terms (i : Nat) (l : L) : Program.Terms Req μ σ := ⟨inv, rely i, guar i l, R.steps i⟩

/-- The invariant, and the safety of the live calls. -/
structure Good (post : Nat → L → Except ε α → σ → Prop) (s : State Req Ans ε α L σ) : Prop where
  invariant : inv s.shared
  calls : ∀ i l p, s.calls[i]? = some (l, p) → R.live s.calls.length i →
    Program.Safe (S.perform i) (terms R inv rely guar i l) (post i l) p s.shared

/-- What the assumptions of the calls on one another come to. -/
structure Compatible (pre : Nat → L → σ → Prop) (post : Nat → L → Except ε α → σ → Prop) :
    Prop where
  lawful : ∀ i l, (terms R inv rely guar i l).Lawful
  code : ∀ i l, Program.Triple (S.perform i) (terms R inv rely guar i l) (pre i l) (S.code l)
    (post i l)
  live : ∀ n i, i < n → R.live (n + 1) i → R.live n i
  others : ∀ n i j l r s s', i ≠ j → R.live n i → R.live n j → inv s → inv s' →
    guar j l r s s' → rely i s s'
  environment : ∀ e s, inv s → R.happens e s →
    inv (S.environment e s) ∧ ∀ i, rely i s (S.environment e s)
  start : ∀ l s, S.Reachable R init s → Good S R inv rely guar post s → R.starts l s →
    inv (S.enter s.calls.length l s.shared) ∧
    pre s.calls.length l (S.enter s.calls.length l s.shared) ∧
    ∀ i < s.calls.length, R.live (s.calls.length + 1) i →
      rely i s.shared (S.enter s.calls.length l s.shared)

variable {S R init inv rely guar} {pre : Nat → L → σ → Prop}
  {post : Nat → L → Except ε α → σ → Prop}

/-- What is done has its postcondition. -/
theorem Good.done (h : Compatible S R init inv rely guar pre post) {s : State Req Ans ε α L σ}
    (hs : Good S R inv rely guar post s) {i : Nat} {l : L} {r : Except ε α}
    (hcall : s.calls[i]? = some (l, .done r)) (hlive : R.live s.calls.length i) :
    post i l r s.shared :=
  hs.calls i l _ hcall hlive s.shared hs.invariant ((h.lawful i l).refl s.shared)

/-- What a call grants with the request it has come to. -/
theorem Good.asks (h : Compatible S R init inv rely guar pre post) {s : State Req Ans ε α L σ}
    (hs : Good S R inv rely guar post s) {i : Nat} {l : L} {r : Req}
    {next : Except ε (Ans r) → Program Req Ans ε α}
    (hcall : s.calls[i]? = some (l, .request r next)) (hlive : R.live s.calls.length i) {m : μ}
    (hm : R.steps i r m s.shared) : guar i l r s.shared (S.perform i r m s.shared).2 :=
  (hs.calls i l _ hcall hlive s.shared hs.invariant ((h.lawful i l).refl s.shared) m hm).2.1

theorem Good.start (h : Compatible S R init inv rely guar pre post) {s : State Req Ans ε α L σ} {l : L}
    (hreach : S.Reachable R init s) (hs : Good S R inv rely guar post s) (hl : R.starts l s) :
    Good S R inv rely guar post
      ⟨S.enter s.calls.length l s.shared, s.calls ++ [(l, S.code l)]⟩ := by
  obtain ⟨hinv, hpre, hothers⟩ := h.start l s hreach hs hl
  refine ⟨hinv, fun i l' p hcall hlive => ?_⟩
  have hlen : (s.calls ++ [(l, S.code l)]).length = s.calls.length + 1 := by simp
  rw [hlen] at hlive
  rcases Nat.lt_trichotomy i s.calls.length with hi | rfl | hi
  · rw [List.getElem?_append_left hi] at hcall
    have hsafe := hs.calls i l' p hcall (h.live _ i hi hlive)
    exact hsafe.rely (h.lawful i l') (hothers i hi hlive)
  · simp only [List.getElem?_concat_length, Option.some.injEq, Prod.mk.injEq] at hcall
    obtain ⟨rfl, rfl⟩ := hcall
    exact h.code _ _ _ hinv hpre
  · rw [List.getElem?_eq_none (by rw [hlen]; omega)] at hcall
    cases hcall

theorem Good.step (h : Compatible S R init inv rely guar pre post) {s s' : State Req Ans ε α L σ}
    {i : Nat} {m : μ} (hs : Good S R inv rely guar post s) (hm : R.meets (.step i m) s)
    (happly : S.apply (.step i m) s = .ok s') : Good S R inv rely guar post s' := by
  obtain ⟨l, r, next, hcall, rfl⟩ := System.apply_step happly
  obtain ⟨hlive, hsteps⟩ := System.meets_step hm hcall
  obtain ⟨hinv, hguar, hnext⟩ := hs.calls i l _ hcall hlive s.shared hs.invariant
    ((h.lawful i l).refl s.shared) m hsteps
  refine ⟨hinv, fun j l' p hj hjlive => ?_⟩
  rw [List.length_set] at hjlive
  by_cases hij : i = j
  · subst hij
    have hlt : i < s.calls.length := (List.getElem?_eq_some_iff.1 hcall).1
    rw [List.getElem?_set_self hlt] at hj
    cases hj
    exact hnext
  · rw [List.getElem?_set_ne hij] at hj
    have hrely := h.others _ j i l r s.shared _ (Ne.symm hij) hjlive hlive hs.invariant hinv hguar
    exact (hs.calls j l' p hj hjlive).rely (h.lawful j l') hrely

/-- **Rely and guarantee**, over all runs. -/
theorem Good.of_reachable (h : Compatible S R init inv rely guar pre post) (h0 : inv init)
    {s : State Req Ans ε α L σ} (hreach : S.Reachable R init s) :
    Good S R inv rely guar post s := by
  have hstart : Good S R inv rely guar post (⟨init, []⟩ : State Req Ans ε α L σ) := by
    refine ⟨h0, fun i l p hcall => ?_⟩
    cases hcall
  refine hreach.induction hstart fun move a b hreach ha hm happly => ?_
  cases move with
  | start l =>
    cases happly
    exact ha.start h hreach hm
  | step i m => exact ha.step h hm happly
  | environment e =>
    cases happly
    obtain ⟨hinv, hrely⟩ := h.environment e a.shared ha.invariant hm
    exact ⟨hinv, fun i l p hcall hlive => (ha.calls i l p hcall hlive).rely (h.lawful i l) (hrely i)⟩

/-- What every request grants, and every start and every change from outside comes to, relates a
state to all later ones. -/
theorem Good.later (h : Compatible S R init inv rely guar pre post) (h0 : inv init)
    {related : σ → σ → Prop} (hrefl : ∀ s, related s s)
    (htrans : ∀ s s' s'', related s s' → related s' s'' → related s s'')
    (hguar : ∀ i l r s s', guar i l r s s' → related s s')
    (henter : ∀ n l s, related s (S.enter n l s))
    (henvironment : ∀ e s, related s (S.environment e s)) {s s' : State Req Ans ε α L σ}
    (hreach : S.Reachable R init s) (hlater : S.Later R s s') : related s.shared s'.shared := by
  induction hlater with
  | refl => exact hrefl s.shared
  | tail hlater hstep ih =>
    obtain ⟨move, hm, happly⟩ := hstep
    refine htrans _ _ _ ih ?_
    cases move with
    | start l =>
      cases happly
      exact henter _ _ _
    | environment e =>
      cases happly
      exact henvironment _ _
    | step i m =>
      obtain ⟨l, r, next, hcall, rfl⟩ := System.apply_step happly
      obtain ⟨hlive, hsteps⟩ := System.meets_step hm hcall
      have hgood := Good.of_reachable h h0 (hreach.later hlater)
      exact hguar i l r _ _ (hgood.asks h hcall hlive hsteps)

/-! ## Calls that do not overlap -/

/-- Runs in which only the call that was started last goes on. -/
abbrev Rules.oneByOne (steps : Req → μ → σ → Prop) : Rules Req Ans ε α L μ ν σ where
  starts _ _ := True
  live n i := i + 1 = n
  steps _ := steps
  happens _ _ := True

/-- A call that is alone counts on the others to take no step, and grants what is asked of its own.
What happens outside goes on. -/
def alone (outside : σ → σ → Prop) (steps asked : Req → μ → σ → Prop) : Program.Terms Req μ σ where
  inv _ := True
  rely := outside
  guar r s _ := ∀ m, steps r m s → asked r m s
  meets := steps

instance (steps : Req → μ → σ → Prop) [∀ r m s, Decidable (steps r m s)] (move : Move L μ ν)
    (s : State Req Ans ε α L σ) :
    Decidable ((Rules.oneByOne steps : Rules Req Ans ε α L μ ν σ).meets move s) :=
  inferInstance

section Alone

open Program

variable {outside : σ → σ → Prop} {steps asked : Req → μ → σ → Prop}

theorem alone_frame (hrefl : ∀ s, outside s s)
    (htrans : ∀ s s' s'', outside s s' → outside s' s'' → outside s s'') :
    (alone outside steps asked).Frame fun _ => True where
  refl := hrefl
  trans := htrans
  failure := Stable.fact True

theorem stable_alone {P : σ → Prop} (h : ∀ s s', P s → outside s s' → P s') :
    Stable (alone outside steps asked) P :=
  fun s s' hs _ houtside => h s s' hs houtside

/-- A request that meets what is asked of it by what is known before it. -/
theorem triple_alone {perform : (r : Req) → μ → σ → Except ε (Ans r) × σ} {r : Req} {P : σ → Prop}
    {Q : Ans r → σ → Prop} (hP : Stable (alone outside steps asked) P)
    (hQ : ∀ a, Stable (alone outside steps asked) (Q a))
    (hasked : ∀ m s, P s → steps r m s → asked r m s)
    (hanswer : ∀ m s a, P s → steps r m s → (perform r m s).1 = .ok a → Q a (perform r m s).2) :
    Triple perform (alone outside steps asked) P (Program.call r) (OnSuccess Q) := by
  refine Triple.call hP (Stable.ends (Stable.fact True) hQ) fun m s _ hs hm => ?_
  refine ⟨trivial, fun m' hm' => hasked m' s hs hm', ?_⟩
  cases hresult : (perform r m s).1 with
  | ok a => exact hanswer m s a hs hm hresult
  | error e => trivial

/-- **Calls that do not overlap meet what is asked of a step**, if a call that is alone does. -/
theorem System.Reachable.of_oneByOne (hframe : (alone outside steps asked).Frame fun _ => True)
    (hcode : ∀ i l, Triple (S.perform i) (alone outside steps asked) (fun _ => True) (S.code l)
      fun _ _ => True)
    (henvironment : ∀ e s, outside s (S.environment e s)) {s : State Req Ans ε α L σ}
    (h : S.Reachable (.oneByOne steps) init s) : S.Reachable (.asking asked) init s := by
  have hcompatible : Compatible S (.oneByOne steps) init (fun _ => True) (fun _ => outside)
      (fun _ _ r s _ => ∀ m, steps r m s → asked r m s) (fun _ _ _ => True) (fun _ _ _ _ => True) := by
    refine ⟨fun _ _ => hframe.toLawful, hcode, ?_, ?_, ?_, ?_⟩
    · intro n i hi hlive
      have hlast : i + 1 = n + 1 := hlive
      omega
    · intro n i j _ _ _ _ hij hi hj
      have hi : i + 1 = n := hi
      have hj : j + 1 = n := hj
      omega
    · exact fun e s _ _ => ⟨trivial, fun _ => henvironment e s⟩
    · refine fun l s _ _ _ => ⟨trivial, trivial, fun i hi hlive => ?_⟩
      have hlast : i + 1 = s.calls.length + 1 := hlive
      omega
  refine h.induction .start fun move a b hreach ha hm happly => ha.next ?_ happly
  cases move with
  | start l => trivial
  | environment e => trivial
  | step i m =>
    obtain ⟨l, r, next, hcall, -⟩ := System.apply_step happly
    obtain ⟨hlive, hsteps⟩ := System.meets_step hm hcall
    have hgood := Good.of_reachable hcompatible trivial hreach
    simp only [Rules.meets, hcall, true_and]
    exact hgood.asks hcompatible hcall hlive hsteps m hsteps

end Alone

end Concurrent
