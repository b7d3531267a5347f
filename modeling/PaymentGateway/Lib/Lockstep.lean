import Mathlib.Data.List.Forall2

/-!
# Two runs in lockstep

Computations that thread a state through a list and may fail. A property of the states that each
element keeps, the whole list keeps (`traverse_keeps`), and a failure that no element has, the list
does not have (`traverse_ne_error`).

Two runs agree when they fail alike, or return one result and leave related states. Lists whose
elements correspond agree when each pair of elements does (`traverse_agree`).
-/

namespace Lockstep

variable {ι ι' σ σ' ρ τ ε : Type*}

/-- Run through a list, handing the state on. -/
def traverse (f : ι → σ → Except ε (ρ × σ)) : List ι → σ → Except ε (List ρ × σ)
  | [], s => .ok ([], s)
  | x :: l, s =>
    match f x s with
    | .error e => .error e
    | .ok (r, s) =>
      match traverse f l s with
      | .error e => .error e
      | .ok (rs, s) => .ok (r :: rs, s)

/-- Change what a computation returns. -/
def mapResult (g : ρ → τ) : Except ε (ρ × σ) → Except ε (τ × σ)
  | .error e => .error e
  | .ok (r, s) => .ok (g r, s)

@[simp] theorem mapResult_eq_error {g : ρ → τ} {x : Except ε (ρ × σ)} {e : ε} :
    mapResult g x = .error e ↔ x = .error e := by
  cases x <;> simp [mapResult]

theorem of_mapResult_eq_ok {g : ρ → τ} {x : Except ε (ρ × σ)} {t : τ} {s : σ}
    (h : mapResult g x = .ok (t, s)) : ∃ r, x = .ok (r, s) := by
  cases x with
  | error e => cases h
  | ok p =>
    cases h
    exact ⟨p.1, rfl⟩

/-! ## One run -/

theorem traverse_keeps {f : ι → σ → Except ε (ρ × σ)} {P : σ → Prop} {l : List ι}
    (hf : ∀ x ∈ l, ∀ s r s', P s → f x s = .ok (r, s') → P s') {s s' : σ} {rs : List ρ} (hs : P s)
    (h : traverse f l s = .ok (rs, s')) : P s' := by
  induction l generalizing s rs with
  | nil =>
    cases h
    exact hs
  | cons x l ih =>
    rw [traverse] at h
    split at h
    · cases h
    · next r s₁ hx =>
      split at h
      · cases h
      · next rs' s₂ hl =>
        cases h
        have hs₁ := hf x List.mem_cons_self s r s₁ hs hx
        exact ih (fun y hy => hf y (List.mem_cons_of_mem _ hy)) hs₁ hl

theorem traverse_ne_error {f : ι → σ → Except ε (ρ × σ)} {P : σ → Prop} {l : List ι} {e : ε}
    (hf : ∀ x ∈ l, ∀ s r s', P s → f x s = .ok (r, s') → P s')
    (hne : ∀ x ∈ l, ∀ s, P s → f x s ≠ .error e) {s : σ} (hs : P s) :
    traverse f l s ≠ .error e := by
  induction l generalizing s with
  | nil => exact nofun
  | cons x l ih =>
    have hx := hne x List.mem_cons_self s hs
    rw [traverse]
    split
    · next e' he' =>
      intro h
      cases h
      exact hx he'
    · next r s₁ hok =>
      have hs₁ := hf x List.mem_cons_self s r s₁ hs hok
      have hl := ih (fun y hy => hf y (List.mem_cons_of_mem _ hy))
        (fun y hy => hne y (List.mem_cons_of_mem _ hy)) hs₁
      split
      · next e' he' =>
        intro h
        cases h
        exact hl he'
      · exact nofun

/-- Where one function does not fail in a certain way the other does the same; then so on a list. -/
theorem traverse_eq {f g : ι → σ → Except ε (ρ × σ)} {l : List ι} {e : ε}
    (hfg : ∀ x ∈ l, ∀ s, f x s ≠ .error e → g x s = f x s) {s : σ}
    (h : traverse f l s ≠ .error e) : traverse g l s = traverse f l s := by
  induction l generalizing s with
  | nil => rfl
  | cons x l ih =>
    have hx : f x s ≠ .error e := by
      intro hx
      rw [traverse, hx] at h
      exact h rfl
    rw [traverse, traverse, hfg x List.mem_cons_self s hx]
    cases hfx : f x s with
    | error e' => rfl
    | ok p =>
      have hl : traverse f l p.2 ≠ .error e := by
        intro hl
        rw [traverse, hfx] at h
        dsimp only at h
        rw [hl] at h
        exact h rfl
      dsimp only
      rw [ih (fun y hy => hfg y (List.mem_cons_of_mem _ hy)) hl]

/-! ## Two runs -/

/-- Both fail alike, or both return the same and leave related states. -/
def Agree (Q : σ → σ' → Prop) : Except ε (ρ × σ) → Except ε (ρ × σ') → Prop
  | .error e, .error e' => e = e'
  | .ok (r, s), .ok (r', s') => r = r' ∧ Q s s'
  | _, _ => False

theorem Agree.mapResult {Q : σ → σ' → Prop} {x : Except ε (ρ × σ)} {y : Except ε (ρ × σ')}
    (h : Agree Q x y) (g : ρ → τ) : Agree Q (mapResult g x) (mapResult g y) := by
  cases x <;> cases y
  · exact h
  · exact h.elim
  · exact h.elim
  · exact ⟨congrArg g h.1, h.2⟩

/-- What agreeing computations return does not depend on the states. -/
theorem Agree.result_eq {Q : σ → σ' → Prop} {x : Except ε (ρ × σ)} {y : Except ε (ρ × σ')}
    (h : Agree Q x y) : x.map (·.1) = y.map (·.1) := by
  cases x <;> cases y
  · exact congrArg Except.error h
  · exact h.elim
  · exact h.elim
  · exact congrArg Except.ok h.1

theorem traverse_agree {Q : σ → σ' → Prop} {P : ι → ι' → Prop} {f : ι → σ → Except ε (ρ × σ)}
    {g : ι' → σ' → Except ε (ρ × σ')}
    (hfg : ∀ x y s s', P x y → Q s s' → Agree Q (f x s) (g y s')) {l : List ι} {l' : List ι'}
    (hl : List.Forall₂ P l l') {s : σ} {s' : σ'} (hs : Q s s') :
    Agree Q (traverse f l s) (traverse g l' s') := by
  induction hl generalizing s s' with
  | nil => exact ⟨rfl, hs⟩
  | @cons x y l l' hxy hl ih =>
    have hhead := hfg x y s s' hxy hs
    rw [traverse, traverse]
    cases hx : f x s with
    | error e =>
      cases hy : g y s' with
      | error e' =>
        rw [hx, hy] at hhead
        exact hhead
      | ok q =>
        rw [hx, hy] at hhead
        exact hhead.elim
    | ok p =>
      cases hy : g y s' with
      | error e' =>
        rw [hx, hy] at hhead
        exact hhead.elim
      | ok q =>
        rw [hx, hy] at hhead
        obtain ⟨hresult, hstates⟩ := hhead
        have htail := ih hstates
        dsimp only
        cases hx' : traverse f l p.2 with
        | error e =>
          cases hy' : traverse g l' q.2 with
          | error e' =>
            rw [hx', hy'] at htail
            exact htail
          | ok q' =>
            rw [hx', hy'] at htail
            exact htail.elim
        | ok p' =>
          cases hy' : traverse g l' q.2 with
          | error e' =>
            rw [hx', hy'] at htail
            exact htail.elim
          | ok q' =>
            rw [hx', hy'] at htail
            obtain ⟨hrest, hlast⟩ := htail
            exact ⟨by rw [hresult, hrest], hlast⟩

end Lockstep
