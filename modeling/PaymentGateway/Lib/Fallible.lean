import Mathlib.Data.List.Basic

/-!
# Fallible steps

Inversion for sequences of steps that may fail: what a successful sequence says about its parts,
what a failed one says about the part that failed, and the invariant rules for a fold of such
steps over a list. `Avoids` says that a kind of error does not occur; its rules follow the way a
computation is built. `Agree` relates two computations that fail together, with its rules for
sequences and folds.
-/

namespace Fallible

universe u v w

variable {ε : Type u} {α β : Type v}

/-- A sequence succeeds when both its parts do. -/
theorem bind_eq_ok {x : Except ε α} {f : α → Except ε β} {b : β} :
    (x >>= f) = .ok b ↔ ∃ a, x = .ok a ∧ f a = .ok b := by
  cases x with
  | error e => simp [bind, Except.bind]
  | ok a => simp [bind, Except.bind]

/-- A sequence fails where one of its parts does. -/
theorem bind_eq_error {x : Except ε α} {f : α → Except ε β} {e : ε} :
    (x >>= f) = .error e ↔ x = .error e ∨ ∃ a, x = .ok a ∧ f a = .error e := by
  cases x with
  | error e' => simp [bind, Except.bind]
  | ok a => simp [bind, Except.bind]

theorem bind_ok (a : α) (f : α → Except ε β) : ((Except.ok a : Except ε α) >>= f) = f a := rfl

theorem bind_error (e : ε) (f : α → Except ε β) :
    ((Except.error e : Except ε α) >>= f) = .error e := rfl

theorem pure_eq_ok {a b : α} : (pure a : Except ε α) = .ok b ↔ a = b := by
  simp [pure, Except.pure]

/-- Renaming the failures does not touch a success. -/
theorem mapError_eq_ok {ε' : Type w} {f : ε → ε'} {x : Except ε α} {a : α} :
    x.mapError f = .ok a ↔ x = .ok a := by
  cases x <;> simp [Except.mapError]

/-- A map over the values passes through a sequence when it passes through what follows. -/
theorem map_bind_map {α' β' : Type v} {x : Except ε α} {g : α → α'} {f : α' → Except ε β'}
    {h : α → Except ε β} {k : β → β'} (hf : ∀ a, x = .ok a → f (g a) = (h a).map k) :
    (x.map g >>= f) = (x >>= h).map k := by
  cases x with
  | error e => rfl
  | ok a => exact hf a rfl

section Avoids

variable {P : ε → Prop}

/-- No failure with an error of the kind `P`. -/
def Avoids (P : ε → Prop) (x : Except ε α) : Prop := ∀ e, x = .error e → ¬ P e

theorem avoids_ok (a : α) : Avoids P (.ok a : Except ε α) := fun _ h => by cases h

theorem avoids_error {e : ε} (h : ¬ P e) : Avoids P (.error e : Except ε α) := by
  intro e' he'
  cases he'
  exact h

theorem Avoids.bind {x : Except ε α} {f : α → Except ε β} (hx : Avoids P x)
    (hf : ∀ a, x = .ok a → Avoids P (f a)) : Avoids P (x >>= f) := by
  intro e h
  rcases bind_eq_error.1 h with h | ⟨a, ha, h⟩
  · exact hx e h
  · exact hf a ha e h

end Avoids

section Fold

variable {ι : Type w} {f : β → ι → Except ε β}

/-- What each step keeps, a fold that succeeds keeps. -/
theorem foldlM_invariant (P : β → Prop) {l : List ι} {b r : β} (h0 : P b)
    (hstep : ∀ i ∈ l, ∀ x y, P x → f x i = .ok y → P y) (h : l.foldlM f b = .ok r) : P r := by
  induction l generalizing b with
  | nil => exact (pure_eq_ok.1 h) ▸ h0
  | cons i l ih =>
    rw [List.foldlM_cons] at h
    obtain ⟨y, hy, hrest⟩ := bind_eq_ok.1 h
    exact ih (hstep i List.mem_cons_self b y h0 hy)
      (fun j hj => hstep j (List.mem_cons_of_mem _ hj)) hrest

/-- The same with an invariant that knows which elements are left. -/
theorem foldlM_invariant_rest (P : List ι → β → Prop) {l : List ι} {b r : β} (h0 : P l b)
    (hstep : ∀ i rest x y, P (i :: rest) x → f x i = .ok y → P rest y)
    (h : l.foldlM f b = .ok r) : P [] r := by
  induction l generalizing b with
  | nil => exact (pure_eq_ok.1 h) ▸ h0
  | cons i l ih =>
    rw [List.foldlM_cons] at h
    obtain ⟨y, hy, hrest⟩ := bind_eq_ok.1 h
    exact ih (hstep i l b y h0 hy) hrest

/-- The same with an invariant that knows which elements are done. -/
theorem foldlM_invariant_done (P : List ι → β → Prop) {l : List ι} {b r : β} (h0 : P [] b)
    (hstep : ∀ done i x y, P done x → f x i = .ok y → P (done ++ [i]) y)
    (h : l.foldlM f b = .ok r) : P l r := by
  have hgeneral : ∀ (l done : List ι) (b : β), P done b → l.foldlM f b = .ok r →
      P (done ++ l) r := by
    intro l
    induction l with
    | nil =>
      intro done b hb h
      rw [List.append_nil, ← pure_eq_ok.1 h]
      exact hb
    | cons i l ih =>
      intro done b hb h
      rw [List.foldlM_cons] at h
      obtain ⟨y, hy, hrest⟩ := bind_eq_ok.1 h
      have hdone := ih (done ++ [i]) y (hstep done i b y hb hy) hrest
      rwa [List.append_assoc] at hdone
  exact hgeneral l [] b h0 h

/-- A fold avoids what each of its steps avoids, in states that the steps before it keep. -/
theorem avoids_foldlM {P : ε → Prop} (I : List ι → β → Prop) {l : List ι} {b : β} (h0 : I [] b)
    (hstep : ∀ done i x y, I done x → f x i = .ok y → I (done ++ [i]) y)
    (hf : ∀ done i rest x, l = done ++ i :: rest → I done x → Avoids P (f x i)) :
    Avoids P (l.foldlM f b) := by
  have hgeneral : ∀ (rest done : List ι) (x : β), l = done ++ rest → I done x →
      Avoids P (rest.foldlM f x) := by
    intro rest
    induction rest with
    | nil => exact fun _ x _ _ => avoids_ok x
    | cons i rest ih =>
      intro done x hl hx
      rw [List.foldlM_cons]
      refine (hf done i rest x hl hx).bind fun y hy => ?_
      apply ih (done ++ [i]) y
      · rw [hl, List.append_assoc, List.singleton_append]
      · exact hstep done i x y hx hy
  exact hgeneral l [] b rfl h0

/-- A fold goes through exactly if it can at each element, when the steps before an element do not
matter to that. -/
theorem foldlM_isOk_iff (I : β → Prop) {can : ι → Prop} {l : List ι} {b : β} (h0 : I b)
    (hstep : ∀ x i y, I x → f x i = .ok y → I y)
    (hcan : ∀ x i, I x → ((∃ y, f x i = .ok y) ↔ can i)) :
    (∃ y, l.foldlM f b = .ok y) ↔ ∀ i ∈ l, can i := by
  induction l generalizing b with
  | nil => exact ⟨fun _ i hi => absurd hi List.not_mem_nil, fun _ => ⟨b, rfl⟩⟩
  | cons i l ih =>
    rw [List.foldlM_cons, List.forall_mem_cons, ← hcan b i h0]
    constructor
    · rintro ⟨y, hy⟩
      obtain ⟨x, hx, hrest⟩ := bind_eq_ok.1 hy
      exact ⟨⟨x, hx⟩, (ih (hstep b i x h0 hx)).1 ⟨y, hrest⟩⟩
    · rintro ⟨⟨x, hx⟩, hl⟩
      rw [hx, bind_ok]
      exact (ih (hstep b i x h0 hx)).2 hl

/-- Where every failure of a step is of the kind `K`, a fold fails so exactly if some element is bad
after the elements before it, when that decides whether its step fails. -/
theorem foldlM_error_iff {K : ε → Prop} (P : List ι → List ι → β → Prop)
    {bad : List ι → ι → Prop} {l : List ι} {b : β} (h0 : P [] l b)
    (hstep : ∀ done i rest x y, P done (i :: rest) x → f x i = .ok y → P (done ++ [i]) rest y)
    (hkind : ∀ done i rest x e, P done (i :: rest) x → f x i = .error e → K e)
    (hbad : ∀ done i rest x, P done (i :: rest) x → ((∃ e, f x i = .error e) ↔ bad done i)) :
    (∃ e, l.foldlM f b = .error e ∧ K e) ↔ ∃ done i rest, l = done ++ i :: rest ∧ bad done i := by
  have hgeneral : ∀ (l done : List ι) (x : β), P done l x →
      ((∃ e, l.foldlM f x = .error e ∧ K e) ↔
        ∃ mid i rest, l = mid ++ i :: rest ∧ bad (done ++ mid) i) := by
    intro l
    induction l with
    | nil =>
      intro done x _
      refine iff_of_false (fun h => ?_) (fun h => ?_)
      · obtain ⟨e, he, -⟩ := h
        cases he
      · obtain ⟨mid, i, rest, hl, -⟩ := h
        simp at hl
    | cons j l ih =>
      intro done x hx
      rw [List.foldlM_cons]
      cases hj : f x j with
      | error e =>
        have hfails : bad done j := (hbad done j l x hx).1 ⟨e, hj⟩
        exact iff_of_true ⟨e, rfl, hkind done j l x e hx hj⟩ ⟨[], j, l, rfl, by simpa using hfails⟩
      | ok y =>
        have hgood : ¬bad done j := by
          intro hfails
          obtain ⟨e, he⟩ := (hbad done j l x hx).2 hfails
          rw [hj] at he
          cases he
        rw [bind_ok, ih (done ++ [j]) y (hstep done j l x y hx hj)]
        constructor
        · intro h
          obtain ⟨mid, i, rest, rfl, hfails⟩ := h
          exact ⟨j :: mid, i, rest, rfl, by simpa using hfails⟩
        · intro h
          obtain ⟨mid, i, rest, hl, hfails⟩ := h
          cases mid with
          | nil =>
            cases hl
            exact absurd (by simpa using hfails) hgood
          | cons j' mid =>
            cases hl
            exact ⟨mid, i, rest, rfl, by simpa using hfails⟩
  exact hgeneral l [] b h0

/-- A map over the states passes through a fold when it passes through each step. -/
theorem foldlM_map {g : β → β} (hf : ∀ b i, f (g b) i = (f b i).map g) (l : List ι) (b : β) :
    l.foldlM f (g b) = (l.foldlM f b).map g := by
  induction l generalizing b with
  | nil => rfl
  | cons i l ih =>
    rw [List.foldlM_cons, List.foldlM_cons, hf]
    exact map_bind_map fun b _ => ih b

/-- What a successful traversal returns for an element is among its results. -/
theorem mapM_eq_ok {f : ι → Except ε β} {l : List ι} {r : List β} (h : l.mapM f = .ok r) :
    ∀ i ∈ l, ∃ b ∈ r, f i = .ok b := by
  induction l generalizing r with
  | nil => simp
  | cons j l ih =>
    rw [List.mapM_cons] at h
    obtain ⟨b, hb, h⟩ := bind_eq_ok.1 h
    obtain ⟨r', hr', h⟩ := bind_eq_ok.1 h
    cases h
    intro i hi
    rcases List.mem_cons.1 hi with rfl | hi
    · exact ⟨b, List.mem_cons_self, hb⟩
    · obtain ⟨b', hb', hi⟩ := ih hr' i hi
      exact ⟨b', List.mem_cons_of_mem _ hb', hi⟩

/-- A traversal succeeds when each element does. -/
theorem mapM_isOk {f : ι → Except ε β} {l : List ι} (h : ∀ i ∈ l, ∃ b, f i = .ok b) :
    ∃ r, l.mapM f = .ok r := by
  induction l with
  | nil => exact ⟨[], rfl⟩
  | cons j l ih =>
    obtain ⟨b, hb⟩ := h j List.mem_cons_self
    obtain ⟨r, hr⟩ := ih fun i hi => h i (List.mem_cons_of_mem _ hi)
    exact ⟨b :: r, by rw [List.mapM_cons, hb, bind_ok, hr, bind_ok]; rfl⟩

theorem mapM_eq_map {f : ι → Except ε β} {g : ι → β} {l : List ι}
    (h : ∀ i ∈ l, f i = .ok (g i)) : l.mapM f = .ok (l.map g) := by
  induction l with
  | nil => rfl
  | cons j l ih =>
    rw [List.mapM_cons, h j List.mem_cons_self, bind_ok,
      ih fun i hi => h i (List.mem_cons_of_mem _ hi)]
    rfl

/-- A successful traversal lists the results in order. -/
theorem mapM_eq_filterMap {f : ι → Except ε β} {l : List ι} {r : List β} (h : l.mapM f = .ok r) :
    r = l.filterMap fun i => (f i).toOption := by
  induction l generalizing r with
  | nil =>
    cases h
    rfl
  | cons j l ih =>
    rw [List.mapM_cons] at h
    obtain ⟨b, hb, h⟩ := bind_eq_ok.1 h
    obtain ⟨r', hr', h⟩ := bind_eq_ok.1 h
    cases h
    rw [List.filterMap_cons, hb, ih hr']
    rfl

/-- A loop that succeeds does so at each element. -/
theorem forM_eq_ok {f : ι → Except ε Unit} {l : List ι} {u : Unit} (h : l.forM f = .ok u) :
    ∀ i ∈ l, f i = .ok () := by
  induction l with
  | nil => simp
  | cons i l ih =>
    obtain ⟨v, hi, hrest⟩ := bind_eq_ok.1 h
    intro j hj
    rcases List.mem_cons.1 hj with rfl | hj
    · exact hi
    · exact ih hrest j hj

end Fold

section Agree

variable {ι : Type w} {α' β' : Type v}

/-- Both fail, with the same error, or both succeed, with related values. -/
def Agree (R : α → α' → Prop) : Except ε α → Except ε α' → Prop
  | .ok a, .ok a' => R a a'
  | .error e, .error e' => e = e'
  | _, _ => False

theorem agree_map {R : α → α' → Prop} {g : α → α'} {x : Except ε α}
    (hR : ∀ a, x = .ok a → R a (g a)) : Agree R x (x.map g) := by
  cases x with
  | error e => exact rfl
  | ok a => exact hR a rfl

theorem Agree.bind {R : α → α' → Prop} {S : β → β' → Prop} {x : Except ε α} {x' : Except ε α'}
    {f : α → Except ε β} {f' : α' → Except ε β'} (hx : Agree R x x')
    (hf : ∀ a a', x = .ok a → x' = .ok a' → R a a' → Agree S (f a) (f' a')) :
    Agree S (x >>= f) (x' >>= f') := by
  cases x with
  | error e =>
    cases x' with
    | error e' => exact hx
    | ok a' => exact hx.elim
  | ok a =>
    cases x' with
    | error e' => exact hx.elim
    | ok a' => exact hf a a' rfl rfl hx

/-- Computations with the same beginning agree when what follows it does. -/
theorem agree_bind {S : β → β' → Prop} {x : Except ε α} {f : α → Except ε β}
    {f' : α → Except ε β'} (hf : ∀ a, x = .ok a → Agree S (f a) (f' a)) :
    Agree S (x >>= f) (x >>= f') := by
  cases x with
  | error e => exact rfl
  | ok a => exact hf a rfl

theorem agree_foldlM {R : β → β' → Prop} {f : β → ι → Except ε β} {f' : β' → ι → Except ε β'}
    (hstep : ∀ i b b', R b b' → Agree R (f b i) (f' b' i)) (l : List ι) {b : β} {b' : β'}
    (h0 : R b b') : Agree R (l.foldlM f b) (l.foldlM f' b') := by
  induction l generalizing b b' with
  | nil => exact h0
  | cons i l ih =>
    rw [List.foldlM_cons, List.foldlM_cons]
    exact (hstep i b b' h0).bind fun _ _ _ _ h => ih h

theorem Agree.error_eq {R : α → α' → Prop} {e : ε} {x' : Except ε α'}
    (h : Agree R (.error e) x') : x' = .error e := by
  cases x' with
  | error e' => exact congrArg Except.error (Eq.symm h)
  | ok a' => exact h.elim

end Agree

end Fallible
