import Mathlib.Data.List.Basic

/-!
# Transactions, executions and histories

A *transaction* is a function `σ → Except ε σ`: it commits with a new state or fails and leaves
the old one. An operation that issues several transactions one after the other is `execAll`: it
stops at the first failure, and what has been committed before stays committed. Its result is an
`Execution`, the list of all states it committed together with the error that stopped it, so an
operation that crashes half-way, or is read half-way by somebody else, is one of the states of
the list.

A `Machine` has operations that read the state once and from that prepare a *script*, the list of
transactions they will run; preparing an entry may already have failed. `Machine.History` is a run
with all its committed states, newest first: operations follow one another, and any of them may
stop after any of its commits.

* `execAll_induction` — what every transaction preserves holds in every committed state.
* `turns_stops`, `fixed_cons_iff` — where an execution ends, and when it changes nothing.
* `turns_execAll` — the transactions an execution commits, each with the state it began in, lead to
  its final state.
* `error_execAll_iff`, `Reachable.attempts` — what an execution fails with, and where its transactions
  begin.
* `History.induction`, `Reachable.invariant` — the invariant rules over runs. They ask for one
  transaction at a time, and may assume a predicate `kind` that all prepared transactions have
  and a predicate `meets` that the run asks of each of them in the state it starts in.
* `Reachable.of_scripts`, `script_avoids` — a condition that every script meets by itself need not
  be asked of a run, and what no transaction of a script fails with stops no execution.
* `History.log` — running operations one after the other makes a history, as long as every
  transaction they come to meets the condition.
-/

namespace Transactional

universe u v

variable {σ : Type u} {ε : Type v}

/-- What an operation did: the states it committed, oldest first, and what stopped it. -/
structure Execution (σ : Type u) (ε : Type v) where
  committed : List σ
  error : Option ε

/-- The state an execution leaves when it started in `s`. -/
def Execution.final (x : Execution σ ε) (s : σ) : σ := x.committed.getLastD s

/-- An operation that only read. -/
def Execution.unchanged : Execution σ ε := ⟨[], none⟩

/-- An operation that failed before its first commit. -/
def Execution.failed (e : ε) : Execution σ ε := ⟨[], some e⟩

/-- One transaction. -/
def exec (f : σ → Except ε σ) (s : σ) : Execution σ ε :=
  match f s with
  | .ok s' => ⟨[s'], none⟩
  | .error e => ⟨[], some e⟩

/-- Transactions one after the other, until the first failure. -/
def execAll : List (σ → Except ε σ) → σ → Execution σ ε
  | [], _ => ⟨[], none⟩
  | f :: fs, s =>
    match f s with
    | .error e => ⟨[], some e⟩
    | .ok s' => { execAll fs s' with committed := s' :: (execAll fs s').committed }

@[simp] theorem final_unchanged (s : σ) : (Execution.unchanged : Execution σ ε).final s = s := rfl

@[simp] theorem final_failed (e : ε) (s : σ) :
    (Execution.failed e : Execution σ ε).final s = s := rfl

theorem execAll_cons_ok {f : σ → Except ε σ} {fs : List (σ → Except ε σ)} {s s' : σ}
    (h : f s = .ok s') : execAll (f :: fs) s =
      ⟨s' :: (execAll fs s').committed, (execAll fs s').error⟩ := by
  simp [execAll, h]

theorem execAll_cons_error {f : σ → Except ε σ} {fs : List (σ → Except ε σ)} {s : σ} {e : ε}
    (h : f s = .error e) : execAll (f :: fs) s = ⟨[], some e⟩ := by
  simp [execAll, h]

theorem execAll_singleton (f : σ → Except ε σ) (s : σ) : execAll [f] s = exec f s := by
  unfold exec
  cases hf : f s with
  | error e => exact execAll_cons_error hf
  | ok s' => exact execAll_cons_ok hf

/-- The final state of a non-empty execution is the final state of its rest. -/
theorem final_cons (s s' : σ) (l : List σ) (e : Option ε) :
    (⟨s' :: l, e⟩ : Execution σ ε).final s = (⟨l, e⟩ : Execution σ ε).final s' :=
  List.getLastD_cons ..

/-- An execution that comes to its end is a loop that succeeds. -/
theorem foldlM_final {ι : Type*} {f : ι → σ → Except ε σ} {entries : List ι} {s : σ}
    (h : (execAll (entries.map f) s).error = none) :
    entries.foldlM (fun s i => f i s) s = .ok ((execAll (entries.map f) s).final s) := by
  induction entries generalizing s with
  | nil => rfl
  | cons i entries ih =>
    rw [List.map_cons] at h ⊢
    rw [List.foldlM_cons]
    cases hf : f i s with
    | error e =>
      rw [execAll_cons_error hf] at h
      cases h
    | ok s' =>
      rw [execAll_cons_ok hf] at h
      rw [execAll_cons_ok hf, final_cons]
      exact ih h

/-- **The induction rule.** What holds at the start and is preserved by every transaction of the
list holds in every committed state. -/
theorem execAll_induction {P : σ → Prop} {fs : List (σ → Except ε σ)} {s : σ} (h0 : P s)
    (hstep : ∀ f ∈ fs, ∀ a b, P a → f a = .ok b → P b) :
    ∀ s' ∈ (execAll fs s).committed, P s' := by
  induction fs generalizing s with
  | nil => simp [execAll]
  | cons f fs ih =>
    cases hf : f s with
    | error e => simp [execAll, hf]
    | ok a =>
      have ha : P a := hstep f List.mem_cons_self s a h0 hf
      rw [execAll_cons_ok hf]
      intro s' hs'
      rcases List.mem_cons.1 hs' with rfl | hs'
      · exact ha
      · exact ih ha (fun g hg => hstep g (List.mem_cons_of_mem _ hg)) s' hs'

/-- An execution that begins with this transaction commits nothing new exactly if the transaction
fails, or leaves the state as it is and the rest commits nothing new. -/
theorem fixed_cons_iff {f : σ → Except ε σ} {fs : List (σ → Except ε σ)} {s : σ} :
    (∀ s' ∈ (execAll (f :: fs) s).committed, s' = s) ↔
      (∃ e, f s = .error e) ∨ (f s = .ok s ∧ ∀ s' ∈ (execAll fs s).committed, s' = s) := by
  cases hf : f s with
  | error e => simp [execAll_cons_error hf]
  | ok a =>
    rw [execAll_cons_ok hf]
    simp only [List.mem_cons, forall_eq_or_imp, reduceCtorEq, exists_false, false_or,
      Except.ok.injEq]
    refine and_congr_right fun ha => ?_
    rw [ha]

/-! ## What an execution commits -/

section Turns

variable {ι : Type*} {f : ι → σ → Except ε σ} {s s' r : σ} {i : ι} {l l' : List (σ × ι)}

/-- The entries of a list whose transactions commit, each with the state it began in. -/
def turns (f : ι → σ → Except ε σ) : List ι → σ → List (σ × ι)
  | [], _ => []
  | i :: l, s =>
    match f i s with
    | .error _ => []
    | .ok s' => (s, i) :: turns f l s'

/-- Transactions that lead from one state to another, each beginning where the one before ended. -/
inductive Turns (f : ι → σ → Except ε σ) : σ → List (σ × ι) → σ → Prop
  | none (s : σ) : Turns f s [] s
  | next {s s' r : σ} {i : ι} {l : List (σ × ι)} :
      f i s = .ok s' → Turns f s' l r → Turns f s ((s, i) :: l) r

theorem turns_cons_ok {rest : List ι} (h : f i s = .ok s') :
    turns f (i :: rest) s = (s, i) :: turns f rest s' := by
  simp [turns, h]

theorem turns_cons_error {rest : List ι} {e : ε} (h : f i s = .error e) :
    turns f (i :: rest) s = [] := by
  simp [turns, h]

/-- The entries of a list whose transactions are begun, each with the state it begins in: those that
commit, and the one that fails. -/
def attempts (f : ι → σ → Except ε σ) : List ι → σ → List (σ × ι)
  | [], _ => []
  | i :: l, s =>
    (s, i) ::
      match f i s with
      | .error _ => []
      | .ok s' => attempts f l s'

theorem attempts_cons_ok {rest : List ι} (h : f i s = .ok s') :
    attempts f (i :: rest) s = (s, i) :: attempts f rest s' := by
  simp [attempts, h]

theorem attempts_cons_error {rest : List ι} {e : ε} (h : f i s = .error e) :
    attempts f (i :: rest) s = [(s, i)] := by
  simp [attempts, h]

/-- An execution fails with what the attempt that fails fails with. -/
theorem error_execAll_iff {entries : List ι} {s : σ} {e : ε} :
    (execAll (entries.map f) s).error = some e ↔
      ∃ o ∈ attempts f entries s, f o.2 o.1 = .error e := by
  induction entries generalizing s with
  | nil => simp [execAll, attempts]
  | cons i entries ih =>
    rw [List.map_cons]
    cases hf : f i s with
    | error e' => simp [execAll_cons_error hf, attempts_cons_error hf, hf]
    | ok s' =>
      rw [execAll_cons_ok hf, attempts_cons_ok hf]
      simp only [List.mem_cons, exists_eq_or_imp, hf, reduceCtorEq, false_or]
      exact ih

/-- An execution that does not fail begins every entry. -/
theorem attempts_complete {entries : List ι} {s : σ}
    (h : (execAll (entries.map f) s).error = none) : (attempts f entries s).map (·.2) = entries := by
  induction entries generalizing s with
  | nil => rfl
  | cons i entries ih =>
    rw [List.map_cons] at h
    cases hf : f i s with
    | error e =>
      rw [execAll_cons_error hf] at h
      cases h
    | ok s' =>
      rw [execAll_cons_ok hf] at h
      rw [attempts_cons_ok hf, List.map_cons, ih h]

/-- What every commit keeps holds where an attempt begins. -/
theorem attempts_invariant {P : σ → Prop} {entries : List ι} {s : σ} (h0 : P s)
    (hstep : ∀ i ∈ entries, ∀ a b, P a → f i a = .ok b → P b) :
    ∀ o ∈ attempts f entries s, P o.1 ∧ o.2 ∈ entries := by
  induction entries generalizing s with
  | nil => simp [attempts]
  | cons i entries ih =>
    have hfirst : P s ∧ i ∈ i :: entries := ⟨h0, List.mem_cons_self⟩
    cases hf : f i s with
    | error e =>
      rw [attempts_cons_error hf]
      simpa using hfirst
    | ok s' =>
      rw [attempts_cons_ok hf]
      intro o ho
      rcases List.mem_cons.1 ho with rfl | ho
      · exact hfirst
      · obtain ⟨hP, hmem⟩ := ih (hstep i List.mem_cons_self s s' h0 hf)
          (fun j hj => hstep j (List.mem_cons_of_mem _ hj)) o ho
        exact ⟨hP, List.mem_cons_of_mem _ hmem⟩

/-- What an execution commits leads to its final state. -/
theorem turns_execAll (f : ι → σ → Except ε σ) (entries : List ι) (s : σ) :
    Turns f s (turns f entries s) ((execAll (entries.map f) s).final s) := by
  induction entries generalizing s with
  | nil => exact .none s
  | cons i entries ih =>
    rw [List.map_cons]
    cases hf : f i s with
    | error e =>
      rw [turns_cons_error hf, execAll_cons_error hf]
      exact .none s
    | ok s' =>
      rw [turns_cons_ok hf, execAll_cons_ok hf, final_cons]
      exact .next hf (ih s')

/-- An execution comes to its end, or stops at an entry that fails in its final state. The invariant
knows the entries that have committed, with the states they began in, and those that are left. -/
theorem turns_stops (P : List (σ × ι) → List ι → σ → Prop) {l : List ι} {s : σ} (h0 : P [] l s)
    (hstep : ∀ done i rest a b, P done (i :: rest) a → f i a = .ok b →
      P (done ++ [(a, i)]) rest b) :
    (turns f l s).map (·.2) = l ∧ P (turns f l s) [] ((execAll (l.map f) s).final s) ∨
    ∃ i rest e, l = (turns f l s).map (·.2) ++ i :: rest ∧
      P (turns f l s) (i :: rest) ((execAll (l.map f) s).final s) ∧
      f i ((execAll (l.map f) s).final s) = .error e := by
  have hgeneral : ∀ (rest : List ι) (done : List (σ × ι)) (a : σ), P done rest a →
      (turns f rest a).map (·.2) = rest ∧
        P (done ++ turns f rest a) [] ((execAll (rest.map f) a).final a) ∨
      ∃ i rest' e, rest = (turns f rest a).map (·.2) ++ i :: rest' ∧
        P (done ++ turns f rest a) (i :: rest') ((execAll (rest.map f) a).final a) ∧
        f i ((execAll (rest.map f) a).final a) = .error e := by
    intro rest
    induction rest with
    | nil =>
      intro done a ha
      rw [turns, List.append_nil]
      exact .inl ⟨rfl, ha⟩
    | cons i rest ih =>
      intro done a ha
      cases hf : f i a with
      | error e =>
        rw [turns_cons_error hf, List.map_cons, execAll_cons_error hf, List.append_nil]
        exact .inr ⟨i, rest, e, rfl, ha, hf⟩
      | ok b =>
        have hfinal : (execAll ((i :: rest).map f) a).final a =
            (execAll (rest.map f) b).final b := by
          rw [List.map_cons, execAll_cons_ok hf, final_cons]
        rw [turns_cons_ok hf, hfinal]
        have hnext := ih (done ++ [(a, i)]) b (hstep done i rest a b ha hf)
        rw [List.append_assoc, List.singleton_append] at hnext
        rcases hnext with ⟨hall, hend⟩ | ⟨j, rest', e, hrest, hend, hfail⟩
        · exact .inl ⟨by rw [List.map_cons, hall], hend⟩
        · exact .inr ⟨j, rest', e, by rw [List.map_cons, List.cons_append, ← hrest], hend, hfail⟩
  exact hgeneral l [] s h0

namespace Turns

theorem append (h : Turns f s l s') (h' : Turns f s' l' r) : Turns f s (l ++ l') r := by
  induction h with
  | none _ => exact h'
  | next hf _ ih => exact .next hf (ih h')

/-- The turn of one of the entries, with what came before it and after it. -/
theorem split {x : σ} (h : Turns f s (l ++ (x, i) :: l') r) :
    Turns f s l x ∧ ∃ x', f i x = .ok x' ∧ Turns f x' l' r := by
  induction l generalizing s with
  | nil =>
    cases h with
    | next hf hrest => exact ⟨.none _, _, hf, hrest⟩
  | cons o l ih =>
    cases h with
    | next hf hrest =>
      obtain ⟨hbefore, hafter⟩ := ih hrest
      exact ⟨.next hf hbefore, hafter⟩

/-- What every turn keeps holds at the end. -/
theorem invariant {P : σ → Prop} (h : Turns f s l r) (h0 : P s)
    (hstep : ∀ x i x', P x → f i x = .ok x' → P x') : P r := by
  induction h with
  | none _ => exact h0
  | next hf _ ih => exact ih (hstep _ _ _ h0 hf)

end Turns

end Turns

/-! ## Machines -/

/-- Operations `ι` that prepare a script of transactions `τ` from the state they read. -/
structure Machine (σ : Type*) (ε : Type*) (τ : Type*) (ι : Type*) where
  apply : τ → σ → Except ε σ
  script : ι → σ → List (Except ε τ)

namespace Machine

variable {τ ι : Type*} (M : Machine σ ε τ ι)

/-- Run one entry of a script. -/
def step : Except ε τ → σ → Except ε σ
  | .ok t, s => M.apply t s
  | .error e, _ => .error e

def run (op : ι) (s : σ) : Execution σ ε := execAll ((M.script op s).map M.step) s

/-- The machine with a clock, which shows the last time that a transaction has read. -/
def clocked (time : τ → Option Int) : Machine (σ × Int) ε τ ι where
  apply t s := (M.apply t s.1).map fun s' => (s', (time t).getD s.2)
  script op s := M.script op s.1

/-- The machine with a record that its transactions write and none of them reads. -/
def tracked {γ : Type*} (note : τ → σ → γ → γ) : Machine (σ × γ) ε τ ι where
  apply t s := (M.apply t s.1).map fun s' => (s', note t s.1 s.2)
  script op s := M.script op s.1

variable (allowed : ι → Prop) (meets : τ → σ → Prop) (init : σ)

/-- A transaction that reads the clock does not find it behind what it has shown. -/
def OnTime (time : τ → Option Int) (t : τ) (s : σ × Int) : Prop := ∀ now ∈ time t, s.2 ≤ now

instance (time : τ → Option Int) (t : τ) (s : σ × Int) : Decidable (OnTime time t s) := by
  unfold OnTime
  infer_instance

/-- A run: its committed states, newest first, and what is left of the current script. An
operation may begin at any time, abandoning the one before. -/
inductive History : List σ → List (Except ε τ) → Prop
  | start : History [init] []
  | begin {s : σ} {past : List σ} {rest : List (Except ε τ)} {op : ι} :
      History (s :: past) rest → allowed op → History (s :: past) (M.script op s)
  | commit {s s' : σ} {past : List σ} {t : τ} {rest : List (Except ε τ)} :
      History (s :: past) (.ok t :: rest) → meets t s → M.apply t s = .ok s' →
      History (s' :: s :: past) rest

/-- The states of runs. -/
def Reachable (s : σ) : Prop := ∃ past rest, M.History allowed meets init (s :: past) rest

variable {M allowed meets init}

theorem clocked_eq_ok {time : τ → Option Int} {t : τ} {s s' : σ × Int}
    (h : (M.clocked time).apply t s = .ok s') :
    M.apply t s.1 = .ok s'.1 ∧ s'.2 = (time t).getD s.2 := by
  simp only [clocked] at h
  cases ht : M.apply t s.1 with
  | error e => rw [ht] at h; cases h
  | ok a => rw [ht] at h; cases h; exact ⟨rfl, rfl⟩

theorem tracked_eq_ok {γ : Type*} {note : τ → σ → γ → γ} {t : τ} {s s' : σ × γ}
    (h : (M.tracked note).apply t s = .ok s') :
    M.apply t s.1 = .ok s'.1 ∧ s'.2 = note t s.1 s.2 := by
  simp only [tracked] at h
  cases ht : M.apply t s.1 with
  | error e => rw [ht] at h; cases h
  | ok a => rw [ht] at h; cases h; exact ⟨rfl, rfl⟩

/-- The induction rule over histories. -/
theorem History.induction {kind : τ → Prop} (P : List σ → Prop) {l : List σ}
    {rest : List (Except ε τ)} (h : M.History allowed meets init l rest)
    (hkind : ∀ op s, allowed op → ∀ t, Except.ok t ∈ M.script op s → kind t)
    (h0 : P [init])
    (hstep : ∀ t s s' past, kind t → P (s :: past) → meets t s → M.apply t s = .ok s' →
      P (s' :: s :: past)) : P l := by
  have hboth : P l ∧ ∀ t, Except.ok t ∈ rest → kind t := by
    induction h with
    | start => exact ⟨h0, fun t ht => absurd ht List.not_mem_nil⟩
    | begin _ hop ih => exact ⟨ih.1, hkind _ _ hop⟩
    | commit _ hmeets hok ih =>
      exact ⟨hstep _ _ _ _ (ih.2 _ List.mem_cons_self) ih.1 hmeets hok,
        fun t ht => ih.2 t (List.mem_cons_of_mem _ ht)⟩
  exact hboth.1

/-- **The invariant rule.** -/
theorem Reachable.invariant {kind : τ → Prop} {P : σ → Prop} {s : σ}
    (h : M.Reachable allowed meets init s)
    (hkind : ∀ op s, allowed op → ∀ t, Except.ok t ∈ M.script op s → kind t) (h0 : P init)
    (hstep : ∀ t a b, kind t → P a → meets t a → M.apply t a = .ok b → P b) : P s := by
  obtain ⟨past, rest, hist⟩ := h
  have hhead : ∀ a ∈ (s :: past).head?, P a := by
    refine History.induction (fun l => ∀ a ∈ l.head?, P a) hist hkind ?_ ?_
    · intro a ha
      cases ha
      exact h0
    · intro t a b past' ht ih hm hok c hc
      cases hc
      exact hstep t a b ht (ih a rfl) hm hok
  exact hhead s rfl

/-- A transitive relation that every commit establishes between two states holds from each state
of a run to all later ones. -/
theorem History.pairwise {kind : τ → Prop} (P : σ → Prop) (R : σ → σ → Prop) {l : List σ}
    {rest : List (Except ε τ)} (h : M.History allowed meets init l rest)
    (hkind : ∀ op s, allowed op → ∀ t, Except.ok t ∈ M.script op s → kind t) (h0 : P init)
    (hinv : ∀ t a b, kind t → P a → meets t a → M.apply t a = .ok b → P b)
    (hstep : ∀ t a b, kind t → P a → meets t a → M.apply t a = .ok b → R a b)
    (htrans : ∀ a b c, R a b → R b c → R a c) : l.Pairwise fun newer older => R older newer := by
  have hboth : l.Pairwise (fun newer older => R older newer) ∧ ∀ a ∈ l.head?, P a := by
    refine History.induction (fun l => l.Pairwise (fun newer older => R older newer) ∧
      ∀ a ∈ l.head?, P a) h hkind ?_ ?_
    · refine ⟨List.pairwise_singleton _ _, fun a ha => ?_⟩
      cases ha
      exact h0
    · rintro t a b past ht ⟨hpair, hhead⟩ hm hok
      have ha : P a := hhead a rfl
      have hab : R a b := hstep t a b ht ha hm hok
      refine ⟨List.pairwise_cons.2 ⟨fun x hx => ?_, hpair⟩, fun c hc => ?_⟩
      · rcases List.mem_cons.1 hx with rfl | hx
        · exact hab
        · exact htrans x a b (List.rel_of_pairwise_cons hpair hx) hab
      · cases hc
        exact hinv t a b ht ha hm hok
  exact hboth.1

/-- What a run was at an earlier time is a run. -/
theorem History.earlier {l later past : List σ} {rest : List (Except ε τ)} {s : σ}
    (h : M.History allowed meets init l rest) (hl : l = later ++ s :: past) :
    ∃ rest', M.History allowed meets init (s :: past) rest' := by
  induction h generalizing later with
  | start =>
    cases later with
    | nil => cases hl; exact ⟨[], .start⟩
    | cons a later => exact absurd (congrArg List.length hl) (by simp)
  | begin _ _ ih => exact ih hl
  | commit hist hmeets hok ih =>
    cases later with
    | nil => cases hl; exact ⟨_, .commit hist hmeets hok⟩
    | cons a later => exact ih (List.cons.inj hl).2

/-- Every state of a run was reached. -/
theorem History.reachable {l : List σ} {rest : List (Except ε τ)} {s : σ}
    (h : M.History allowed meets init l rest) (hs : s ∈ l) :
    M.Reachable allowed meets init s := by
  obtain ⟨later, past, hl⟩ := List.append_of_mem hs
  exact ⟨past, h.earlier hl⟩

theorem reachable_init : M.Reachable allowed meets init init := ⟨[], [], .start⟩

/-! ## Running a machine -/

variable (M meets)

/-- Every transaction a script comes to meets the condition in the state it starts in. -/
def Meets : List (Except ε τ) → σ → Prop
  | [], _ => True
  | .error _ :: _, _ => True
  | .ok t :: rest, s => meets t s ∧ ∀ s', M.apply t s = .ok s' → Meets rest s'

/-- Every transaction of a list of operations meets the condition. -/
def AllMeet : List ι → σ → Prop
  | [], _ => True
  | op :: ops, s => M.Meets meets (M.script op s) s ∧ AllMeet ops ((M.run op s).final s)

/-- The committed states of operations run one after the other, newest first. -/
def log : List ι → List σ → List σ
  | op :: ops, s :: past => log ops ((M.run op s).committed.reverse ++ s :: past)
  | _, l => l

variable {M meets}

instance Meets.decidable [∀ t s, Decidable (meets t s)] (script : List (Except ε τ)) (s : σ) :
    Decidable (M.Meets meets script s) :=
  match script with
  | [] => isTrue trivial
  | .error _ :: _ => isTrue trivial
  | .ok t :: rest =>
    match hok : M.apply t s with
    | .error _ => decidable_of_iff (meets t s)
        ⟨fun h => ⟨h, fun s' hs' => by rw [hok] at hs'; cases hs'⟩, And.left⟩
    | .ok a =>
      have := Meets.decidable rest a
      decidable_of_iff (meets t s ∧ M.Meets meets rest a)
        ⟨fun h => ⟨h.1, fun s' hs' => by rw [hok] at hs'; cases hs'; exact h.2⟩,
          fun h => ⟨h.1, h.2 a hok⟩⟩

instance AllMeet.decidable [∀ t s, Decidable (meets t s)] (ops : List ι) (s : σ) :
    Decidable (M.AllMeet meets ops s) :=
  match ops with
  | [] => isTrue trivial
  | op :: ops =>
    have := AllMeet.decidable ops ((M.run op s).final s)
    inferInstanceAs (Decidable (M.Meets meets (M.script op s) s ∧
      M.AllMeet meets ops ((M.run op s).final s)))

/-- A condition that holds of each transaction of a script in every state. -/
theorem meets_of_forall {script : List (Except ε τ)} (h : ∀ t, Except.ok t ∈ script → ∀ s, meets t s)
    (s : σ) : M.Meets meets script s := by
  induction script generalizing s with
  | nil => trivial
  | cons entry rest ih =>
    cases entry with
    | error e => trivial
    | ok t =>
      refine ⟨h t List.mem_cons_self s, fun s' _ => ih (fun t' ht' => ?_) s'⟩
      exact h t' (List.mem_cons_of_mem _ ht')

/-- A script meets a condition exactly if each transaction it begins does. -/
theorem meets_iff_attempts {script : List (Except ε τ)} {s : σ} : M.Meets meets script s ↔
    ∀ o ∈ Transactional.attempts M.step script s, ∀ t, o.2 = .ok t → meets t o.1 := by
  induction script generalizing s with
  | nil => simp [Meets, Transactional.attempts]
  | cons entry rest ih =>
    cases entry with
    | error e =>
      have hfail : M.step (.error e) s = .error e := rfl
      rw [attempts_cons_error hfail]
      simp [Meets]
    | ok t =>
      cases hok : M.step (.ok t) s with
      | error e =>
        have happly : M.apply t s = .error e := hok
        rw [attempts_cons_error hok]
        simp [Meets, happly]
      | ok a =>
        have happly : M.apply t s = .ok a := hok
        rw [attempts_cons_ok hok]
        simp [Meets, happly, ih]

theorem meets_true (script : List (Except ε τ)) (s : σ) : M.Meets (fun _ _ => True) script s :=
  meets_of_forall (fun _ _ _ => trivial) s

theorem allMeet_true (ops : List ι) (s : σ) : M.AllMeet (fun _ _ => True) ops s := by
  induction ops generalizing s with
  | nil => trivial
  | cons op ops ih => exact ⟨meets_true _ _, ih _⟩

/-- A run under a condition is a run under a weaker one. -/
theorem Reachable.mono {meets' : τ → σ → Prop} {s : σ} (h : M.Reachable allowed meets init s)
    (hweaker : ∀ t a, meets t a → meets' t a) : M.Reachable allowed meets' init s := by
  obtain ⟨past, rest, hist⟩ := h
  have hall : ∀ l, M.History allowed meets init l rest → M.History allowed meets' init l rest := by
    intro l hl
    clear hist
    induction hl with
    | start => exact .start
    | begin _ hop ih => exact .begin ih hop
    | commit _ hmeets hok ih => exact .commit ih (hweaker _ _ hmeets) hok
  exact ⟨past, rest, hall _ hist⟩

/-- A run of scripts that meet a condition where they are prepared meets it throughout. -/
theorem Reachable.of_scripts {s : σ} (h : M.Reachable allowed (fun _ _ => True) init s)
    (hscript : ∀ op s, allowed op → M.Meets meets (M.script op s) s) :
    M.Reachable allowed meets init s := by
  obtain ⟨past, rest, hist⟩ := h
  have hboth : ∀ l, M.History allowed (fun _ _ => True) init l rest →
      M.History allowed meets init l rest ∧ ∀ a ∈ l.head?, M.Meets meets rest a := by
    intro l hl
    clear hist
    induction hl with
    | start => exact ⟨.start, fun _ _ => trivial⟩
    | begin _ hop ih =>
      refine ⟨.begin ih.1 hop, fun a ha => ?_⟩
      cases ha
      exact hscript _ _ hop
    | commit _ _ hok ih =>
      obtain ⟨hmeets, hrest⟩ := ih.2 _ rfl
      refine ⟨.commit ih.1 hmeets hok, fun a ha => ?_⟩
      cases ha
      exact hrest _ hok
  exact ⟨past, rest, (hboth _ hist).1⟩

/-- What neither the preparation of a script nor any of its transactions fails with, in states
that the transactions before it keep, does not stop its execution. -/
theorem script_avoids {P : σ → Prop} {bad : ε → Prop} {script : List (Except ε τ)} {s : σ}
    (hmeets : M.Meets meets script s) (h0 : P s)
    (hstep : ∀ t a b, Except.ok t ∈ script → P a → meets t a → M.apply t a = .ok b → P b)
    (hprepared : ∀ e, Except.error e ∈ script → ¬ bad e)
    (hfails : ∀ t a e, Except.ok t ∈ script → P a → meets t a → M.apply t a = .error e → ¬ bad e) :
    ∀ e, (Transactional.execAll (script.map M.step) s).error = some e → ¬ bad e := by
  induction script generalizing s with
  | nil =>
    intro e he
    cases he
  | cons entry rest ih =>
    intro e he
    cases entry with
    | error e' =>
      have hfail : M.step (.error e') s = .error e' := rfl
      rw [List.map_cons, execAll_cons_error hfail] at he
      cases he
      exact hprepared _ List.mem_cons_self
    | ok t =>
      obtain ⟨ht, hrest⟩ := hmeets
      cases hok : M.apply t s with
      | error e' =>
        have hfail : M.step (.ok t) s = .error e' := hok
        rw [List.map_cons, execAll_cons_error hfail] at he
        cases he
        exact hfails t s _ List.mem_cons_self h0 ht hok
      | ok a =>
        have hdone : M.step (.ok t) s = .ok a := hok
        rw [List.map_cons, execAll_cons_ok hdone] at he
        refine ih (hrest a hok) (hstep t s a List.mem_cons_self h0 ht hok) ?_ ?_ ?_ e he
        · exact fun t' x y ht' => hstep t' x y (List.mem_cons_of_mem _ ht')
        · exact fun e' he' => hprepared e' (List.mem_cons_of_mem _ he')
        · exact fun t' x e' ht' => hfails t' x e' (List.mem_cons_of_mem _ ht')

/-- A script runs to every state it commits. -/
theorem History.execAll {script : List (Except ε τ)} {s : σ} {past : List σ}
    (h : M.History allowed meets init (s :: past) script) (hmeets : M.Meets meets script s) :
    ∃ rest, M.History allowed meets init
      ((Transactional.execAll (script.map M.step) s).committed.reverse ++ s :: past) rest := by
  induction script generalizing s past with
  | nil => exact ⟨_, h⟩
  | cons entry rest ih =>
    cases entry with
    | error e =>
      have hfail : M.step (.error e) s = .error e := rfl
      rw [List.map_cons, execAll_cons_error hfail]
      exact ⟨_, h⟩
    | ok t =>
      cases hok : M.apply t s with
      | error e =>
        have hstep : M.step (.ok t) s = .error e := hok
        rw [List.map_cons, execAll_cons_error hstep]
        exact ⟨_, h⟩
      | ok a =>
        have hstep : M.step (.ok t) s = .ok a := hok
        obtain ⟨rest', hnext⟩ := ih (.commit h hmeets.1 hok) (hmeets.2 a hok)
        refine ⟨rest', ?_⟩
        rw [List.map_cons, execAll_cons_ok hstep, List.reverse_cons, List.append_assoc]
        exact hnext

/-- The newest state of an execution is its final one. -/
theorem run_head (x : Execution σ ε) (s : σ) (past : List σ) :
    ∃ past', x.committed.reverse ++ s :: past = x.final s :: past' := by
  rcases hlast : x.committed.reverse with - | ⟨a, l⟩
  · refine ⟨past, ?_⟩
    simp [Execution.final, List.reverse_eq_nil_iff.1 hlast]
  · refine ⟨l ++ s :: past, ?_⟩
    have hrev : x.committed = l.reverse ++ [a] := by
      rw [← List.reverse_reverse x.committed, hlast, List.reverse_cons]
    simp [Execution.final, hrev]

/-- What an operation leaves is reachable. -/
theorem Reachable.run {op : ι} {s : σ} (h : M.Reachable allowed meets init s) (hop : allowed op)
    (hmeets : M.Meets meets (M.script op s) s) :
    M.Reachable allowed meets init ((M.run op s).final s) := by
  obtain ⟨past, rest, hist⟩ := h
  obtain ⟨rest', hnext⟩ := History.execAll (.begin hist hop) hmeets
  obtain ⟨past', hpast⟩ := run_head (M.run op s) s past
  exact ⟨past', rest', hpast ▸ hnext⟩

/-- Operations that were run left a newest state. -/
theorem log_eq_cons (M : Machine σ ε τ ι) (ops : List ι) (s : σ) (past : List σ) :
    ∃ s' past', M.log ops (s :: past) = s' :: past' := by
  induction ops generalizing s past with
  | nil => exact ⟨s, past, rfl⟩
  | cons op ops ih =>
    obtain ⟨past', hpast⟩ := run_head (M.run op s) s past
    show ∃ s' past'', M.log ops ((M.run op s).committed.reverse ++ s :: past) = s' :: past''
    rw [hpast]
    exact ih _ _

/-- **Running operations makes a history.** -/
theorem History.log {ops : List ι} {s : σ} {past : List σ} {rest : List (Except ε τ)}
    (h : M.History allowed meets init (s :: past) rest) (hops : ∀ op ∈ ops, allowed op)
    (hmeets : M.AllMeet meets ops s) :
    ∃ rest', M.History allowed meets init (M.log ops (s :: past)) rest' := by
  induction ops generalizing s past rest with
  | nil => exact ⟨rest, h⟩
  | cons op ops ih =>
    obtain ⟨rest1, h1⟩ := History.execAll (.begin h (hops op List.mem_cons_self)) hmeets.1
    obtain ⟨past', hpast⟩ := run_head (M.run op s) s past
    have hrun : M.log (op :: ops) (s :: past) = M.log ops ((M.run op s).final s :: past') := by
      show M.log ops ((M.run op s).committed.reverse ++ s :: past) = _
      rw [hpast]
    rw [hrun]
    refine ih (hpast ▸ h1) ?_ hmeets.2
    intro op' hop'
    exact hops op' (List.mem_cons_of_mem _ hop')

/-- The last state of operations run from the start is reachable. -/
theorem reachable_log {ops : List ι} (hops : ∀ op ∈ ops, allowed op)
    (hmeets : M.AllMeet meets ops init) :
    M.Reachable allowed meets init ((M.log ops [init]).headD init) := by
  obtain ⟨rest, hist⟩ := History.log (.start : M.History allowed meets init [init] []) hops hmeets
  cases hlog : M.log ops [init] with
  | nil => exact reachable_init
  | cons s past => exact ⟨past, rest, hlog ▸ hist⟩

/-- Every transaction of a script begins in a state of the run. -/
theorem Reachable.attempts {op : ι} {s : σ} (h : M.Reachable allowed meets init s)
    (hop : allowed op) (hmeets : ∀ t a, meets t a) :
    ∀ o ∈ Transactional.attempts M.step (M.script op s) s, M.Reachable allowed meets init o.1 := by
  obtain ⟨past, rest, hist⟩ := h
  have hgeneral : ∀ (script : List (Except ε τ)) (s : σ) (past : List σ),
      M.History allowed meets init (s :: past) script →
      ∀ o ∈ Transactional.attempts M.step script s, M.Reachable allowed meets init o.1 := by
    intro script
    induction script with
    | nil => exact fun _ _ _ o ho => absurd ho List.not_mem_nil
    | cons entry rest ih =>
      intro s past hist
      cases hstep : M.step entry s with
      | error e =>
        rw [attempts_cons_error hstep]
        simpa using ⟨past, _, hist⟩
      | ok s' =>
        have hnext : ∃ past', M.History allowed meets init (s' :: past') rest := by
          cases entry with
          | error e => cases hstep
          | ok t => exact ⟨s :: past, .commit hist (hmeets t s) hstep⟩
        obtain ⟨past', hnext⟩ := hnext
        rw [attempts_cons_ok hstep]
        intro o ho
        rcases List.mem_cons.1 ho with rfl | ho
        · exact ⟨past, _, hist⟩
        · exact ih s' past' hnext o ho
  exact hgeneral _ s past (.begin hist hop)

/-- Two machines with the same scripts, whose transactions do the same where the condition holds,
come to the same states. -/
theorem log_congr {N : Machine σ ε τ ι} (hscript : N.script = M.script)
    (happly : ∀ t s, meets t s → N.apply t s = M.apply t s) {ops : List ι} {s : σ} {past : List σ}
    (hmeets : M.AllMeet meets ops s) : N.log ops (s :: past) = M.log ops (s :: past) := by
  have hexec : ∀ (script : List (Except ε τ)) (s : σ), M.Meets meets script s →
      Transactional.execAll (script.map N.step) s = Transactional.execAll (script.map M.step) s := by
    intro script
    induction script with
    | nil => exact fun _ _ => rfl
    | cons entry rest ih =>
      intro s hs
      cases entry with
      | error e => rfl
      | ok t =>
        have hstep : N.step (.ok t) s = M.step (.ok t) s := happly t s hs.1
        cases hok : M.step (.ok t) s with
        | error e =>
          rw [List.map_cons, List.map_cons, execAll_cons_error (hstep.trans hok),
            execAll_cons_error hok]
        | ok a =>
          rw [List.map_cons, List.map_cons, execAll_cons_ok (hstep.trans hok), execAll_cons_ok hok,
            ih a (hs.2 a hok)]
  have hrun : ∀ op s, M.Meets meets (M.script op s) s → N.run op s = M.run op s := by
    intro op s hs
    simp only [run, hscript]
    exact hexec _ s hs
  induction ops generalizing s past with
  | nil => rfl
  | cons op ops ih =>
    have hop := hrun op s hmeets.1
    show N.log ops ((N.run op s).committed.reverse ++ s :: past) =
      M.log ops ((M.run op s).committed.reverse ++ s :: past)
    rw [hop]
    obtain ⟨past', hpast⟩ := run_head (M.run op s) s past
    rw [hpast]
    exact ih hmeets.2

end Machine

end Transactional
