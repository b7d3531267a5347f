import PaymentGateway.Lib.Program

/-!
# Programs confined to some requests

Most of a program's requests matter little to a property of a few of them. `Confined p` says that
every request a process may come to, whatever it is answered, is one of `p`; it follows the
constructors, so a program is confined because its parts are.

**Theorem (`Confined.triple`).** What the requests of `p` keep, whoever makes them, a process confined
to `p` keeps throughout, whether it succeeds or fails.
-/

namespace Program

variable {Req : Type} {Ans : Req → Type} {ε α β : Type}

/-- Every request that the process may come to is one of these. -/
def Confined (p : Req → Prop) : Program Req Ans ε α → Prop
  | .done _ => True
  | .request r next => p r ∧ ∀ a, (next a).Confined p

namespace Confined

variable {p : Req → Prop}

theorem call {r : Req} (h : p r) :
    (Program.call r : Program Req Ans ε (Ans r)).Confined p :=
  ⟨h, fun _ => trivial⟩

theorem pure (a : α) : (Pure.pure a : Program Req Ans ε α).Confined p := trivial

theorem andThen {x : Program Req Ans ε α} {f : Except ε α → Program Req Ans ε β}
    (hx : x.Confined p) (hf : ∀ r, (f r).Confined p) : (x.andThen f).Confined p := by
  induction x with
  | done r => exact hf r
  | request r next ih => exact ⟨hx.1, fun a => ih a (hx.2 a)⟩

theorem bind {x : Program Req Ans ε α} {f : α → Program Req Ans ε β} (hx : x.Confined p)
    (hf : ∀ a, (f a).Confined p) : (x >>= f).Confined p := by
  refine hx.andThen fun r => ?_
  cases r with
  | ok a => exact hf a
  | error e => trivial

theorem map {x : Program Req Ans ε α} (f : α → β) (hx : x.Confined p) :
    (f <$> x).Confined p :=
  hx.bind fun _ => trivial

theorem ite {c : Prop} [Decidable c] {x y : Program Req Ans ε α} (hx : x.Confined p)
    (hy : y.Confined p) : (if c then x else y).Confined p := by
  split
  · exact hx
  · exact hy

theorem foldlM {γ : Type} {f : α → γ → Program Req Ans ε α} (hf : ∀ a x, (f a x).Confined p)
    (l : List γ) (a : α) : (l.foldlM f a).Confined p := by
  induction l generalizing a with
  | nil => trivial
  | cons x l ih => exact (hf a x).bind ih

variable {μ σ : Type} {perform : (r : Req) → μ → σ → Except ε (Ans r) × σ} {T : Terms Req μ σ}
  {P : σ → Prop}

/-- What each of the requests keeps, a process confined to them keeps. -/
theorem triple {x : Program Req Ans ε α} (hx : x.Confined p) (hP : Stable T P)
    (hkeeps : ∀ r m s, p r → T.inv s → P s → T.meets r m s →
      T.inv (perform r m s).2 ∧ T.guar r s (perform r m s).2 ∧ P (perform r m s).2) :
    Triple perform T P x fun _ => P := by
  induction x with
  | done r => exact fun s _ hs s' hinv' hrely => hP s s' hs hinv' hrely
  | request r next ih =>
    intro s _ hs s' hinv' hrely m hm
    obtain ⟨hinv'', hguar, hs''⟩ := hkeeps r m s' hx.1 hinv' (hP s s' hs hinv' hrely) hm
    exact ⟨hinv'', hguar, ih _ (hx.2 _) _ hinv'' hs''⟩

end Confined

end Program
