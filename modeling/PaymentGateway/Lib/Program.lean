import Mathlib.Data.List.Basic

/-!
# Programs that make requests

A process that awaits hands a request to the world and goes on with its answer. `Program` is the
tree of what it may do: it is done, with a result or a failure, or it makes a request and has a
continuation for every answer, the failure of the request included. Everything between two awaits
happens at once.

The state belongs to the world, so the same program can be run alone (`Program.exec`) or be cut at
its requests and interleaved with others. `Program.Safe` is what it takes to run it among others:
whatever they do between its requests as long as they keep to `rely`, each of its requests keeps to
`guar`, and the postcondition holds of its result. `Triple` is the same from a precondition on; its
rules follow the constructors (`Triple.call`, `Triple.bind`, `Triple.tryCatch`), with one for loops
(`Triple.foldlM_ends`), and ask of an assertion about the shared state that the others leave it
alone (`Stable`).
-/

/-- A process over the requests `Req`, which are answered by `Ans`. -/
inductive Program (Req : Type) (Ans : Req → Type) (ε α : Type) : Type
  | done (result : Except ε α)
  | request (r : Req) (next : Except ε (Ans r) → Program Req Ans ε α)

namespace Program

variable {Req : Type} {Ans : Req → Type} {ε α β : Type}

/-- One request. -/
def call (r : Req) : Program Req Ans ε (Ans r) := .request r .done

/-- Go on with what a process ended with, a failure included. -/
def andThen (x : Program Req Ans ε α) (f : Except ε α → Program Req Ans ε β) :
    Program Req Ans ε β :=
  match x with
  | .done r => f r
  | .request r next => .request r fun a => (next a).andThen f

/-- Nothing follows a failure. -/
protected def bind (x : Program Req Ans ε α) (f : α → Program Req Ans ε β) :
    Program Req Ans ε β :=
  x.andThen fun
    | .ok a => f a
    | .error e => .done (.error e)

instance : Monad (Program Req Ans ε) where
  pure a := .done (.ok a)
  bind := Program.bind

instance : MonadExcept ε (Program Req Ans ε) where
  throw e := .done (.error e)
  tryCatch x handle := x.andThen fun
    | .ok a => .done (.ok a)
    | .error e => handle e

def isDone : Program Req Ans ε α → Bool
  | .done _ => true
  | .request _ _ => false

/-! ## Running a program alone -/

variable {μ σ : Type} (perform : (r : Req) → μ → σ → Except ε (Ans r) × σ)

/-- Run a program on a feed of moments, one for each request. -/
def exec : Program Req Ans ε α → (Nat → μ) → Nat → σ → Except ε α × σ
  | .done r, _, _, s => (r, s)
  | .request r next, feed, n, s =>
    (next (perform r (feed n) s).1).exec feed (n + 1) (perform r (feed n) s).2

/-! ## Statements that fail -/

/-- How a database answers a statement: it may fail before it takes effect, or after. -/
inductive Fate (ε : Type)
  | answered
  | failed (error : ε)
  | failedLate (error : ε)

namespace Fate

def effective : Fate ε → Prop
  | .failed _ => False
  | _ => True

instance (fate : Fate ε) : Decidable fate.effective := by
  cases fate <;> unfold effective <;> infer_instance

/-- The answer to a statement on a state, from what it comes to there. -/
def answer (fate : Fate ε) (performed : Except ε α × σ) (s : σ) : Except ε α × σ :=
  match fate with
  | .answered => performed
  | .failed error => (.error error, s)
  | .failedLate error => (.error error, performed.2)

variable {fate : Fate ε} {performed : Except ε α × σ} {s : σ}

theorem answer_kept {P : σ → Prop} (h : P s) (hperformed : fate.effective → P performed.2) :
    P (fate.answer performed s).2 := by
  cases fate with
  | answered => exact hperformed trivial
  | failed error => exact h
  | failedLate error => exact hperformed trivial

theorem answer_of_effective (h : fate.effective) : (fate.answer performed s).2 = performed.2 := by
  cases fate with
  | failed error => exact h.elim
  | answered | failedLate error => rfl

/-- Only what has taken effect succeeds. -/
theorem answer_ok {a : α} (h : (fate.answer performed s).1 = .ok a) :
    fate.effective ∧ fate.answer performed s = performed := by
  cases fate with
  | answered => exact ⟨trivial, rfl⟩
  | failed error | failedLate error => cases h

end Fate

/-! ## Running a program among others -/

/-- What a process counts on, what it grants with each of its requests, and what is asked of the
moments they are performed in. The invariant is kept by everybody. -/
structure Terms (Req μ σ : Type) where
  inv : σ → Prop
  rely : σ → σ → Prop
  guar : Req → σ → σ → Prop
  meets : Req → μ → σ → Prop

/-- Others may take no step, or several. -/
structure Terms.Lawful (T : Terms Req μ σ) : Prop where
  refl : ∀ s, T.rely s s
  trans : ∀ s s' s'', T.rely s s' → T.rely s' s'' → T.rely s s''

/-- What others leave alone. -/
def Stable (T : Terms Req μ σ) (P : σ → Prop) : Prop :=
  ∀ s s', P s → T.inv s' → T.rely s s' → P s'

variable (T : Terms Req μ σ)

def Safe (post : Except ε α → σ → Prop) : Program Req Ans ε α → σ → Prop
  | .done r, s => ∀ s', T.inv s' → T.rely s s' → post r s'
  | .request r next, s => ∀ s', T.inv s' → T.rely s s' → ∀ m, T.meets r m s' →
      T.inv (perform r m s').2 ∧ T.guar r s' (perform r m s').2 ∧
        Safe post (next (perform r m s').1) (perform r m s').2

def Triple (pre : σ → Prop) (x : Program Req Ans ε α) (post : Except ε α → σ → Prop) : Prop :=
  ∀ s, T.inv s → pre s → Safe perform T post x s

variable {perform T} {post post' : Except ε α → σ → Prop} {P P' : σ → Prop}

theorem Safe.rely (hT : T.Lawful) {x : Program Req Ans ε α} {s s' : σ}
    (h : Safe perform T post x s) (hs : T.rely s s') : Safe perform T post x s' := by
  cases x with
  | done r => exact fun s'' hinv hs' => h s'' hinv (hT.trans s s' s'' hs hs')
  | request r next => exact fun s'' hinv hs' => h s'' hinv (hT.trans s s' s'' hs hs')

theorem Safe.mono {x : Program Req Ans ε α} {s : σ} (h : Safe perform T post x s)
    (hpost : ∀ r s, post r s → post' r s) : Safe perform T post' x s := by
  induction x generalizing s with
  | done r => exact fun s' hinv hs => hpost r s' (h s' hinv hs)
  | request r next ih =>
    intro s' hinv hs m hm
    obtain ⟨hinv', hguar, hnext⟩ := h s' hinv hs m hm
    exact ⟨hinv', hguar, ih _ hnext⟩

theorem Safe.andThen (hT : T.Lawful) {x : Program Req Ans ε α}
    {f : Except ε α → Program Req Ans ε β} {after : Except ε β → σ → Prop} {s : σ}
    (hs : T.inv s) (hx : Safe perform T post x s)
    (hf : ∀ r, Triple perform T (post r) (f r) after) : Safe perform T after (x.andThen f) s := by
  induction x generalizing s with
  | done r => exact hf r s hs (hx s hs (hT.refl s))
  | request r next ih =>
    intro s' hinv hrely m hm
    obtain ⟨hinv', hguar, hnext⟩ := hx s' hinv hrely m hm
    exact ⟨hinv', hguar, ih _ hinv' hnext⟩

theorem Stable.and {Q : σ → Prop} (hP : Stable T P) (hQ : Stable T Q) :
    Stable T fun s => P s ∧ Q s :=
  fun s s' h hinv hrely => ⟨hP s s' h.1 hinv hrely, hQ s s' h.2 hinv hrely⟩

theorem Stable.all {ι : Sort*} {Q : ι → σ → Prop} (hQ : ∀ i, Stable T (Q i)) :
    Stable T fun s => ∀ i, Q i s :=
  fun s s' h hinv hrely i => hQ i s s' (h i) hinv hrely

theorem Stable.fact (p : Prop) : Stable T fun _ => p := fun _ _ h _ _ => h

theorem Triple.mono {x : Program Req Ans ε α} (h : Triple perform T P x post)
    (hpre : ∀ s, T.inv s → P' s → P s) (hpost : ∀ r s, post r s → post' r s) :
    Triple perform T P' x post' :=
  fun s hinv hs => (h s hinv (hpre s hinv hs)).mono hpost

/-- What an assertion says of no state in particular. -/
theorem Triple.knowing {x : Program Req Ans ε α} {fact : Prop}
    (h : fact → Triple perform T P x post) : Triple perform T (fun s => P s ∧ fact) x post :=
  fun s hinv hs => h hs.2 s hinv hs.1

theorem Triple.done {r : Except ε α} (hpre : Stable T P)
    (h : ∀ s, T.inv s → P s → post r s) : Triple perform T P (.done r) post :=
  fun s _ hs s' hinv' hs' => h s' hinv' (hpre s s' hs hinv' hs')

theorem Triple.call {r : Req} {post : Except ε (Ans r) → σ → Prop} (hpre : Stable T P)
    (hpost : ∀ a, Stable T (post a))
    (h : ∀ m s, T.inv s → P s → T.meets r m s →
      T.inv (perform r m s).2 ∧ T.guar r s (perform r m s).2 ∧
        post (perform r m s).1 (perform r m s).2) :
    Triple perform T P (call r) post := by
  intro s _ hs s' hinv' hs' m hm
  obtain ⟨hinv'', hguar, hans⟩ := h m s' hinv' (hpre s s' hs hinv' hs') hm
  exact ⟨hinv'', hguar, fun t hinv hrely => hpost _ _ t hans hinv hrely⟩

theorem Triple.ite {c : Prop} [Decidable c] {x y : Program Req Ans ε α}
    (hx : c → Triple perform T P x post) (hy : ¬c → Triple perform T P y post) :
    Triple perform T P (if c then x else y) post := by
  by_cases h : c
  · rw [if_pos h]
    exact hx h
  · rw [if_neg h]
    exact hy h

theorem Triple.andThen (hT : T.Lawful) {x : Program Req Ans ε α}
    {f : Except ε α → Program Req Ans ε β} {after : Except ε β → σ → Prop}
    (hx : Triple perform T P x post) (hf : ∀ r, Triple perform T (post r) (f r) after) :
    Triple perform T P (x.andThen f) after :=
  fun s hinv hs => (hx s hinv hs).andThen hT hinv hf

theorem Triple.bind (hT : T.Lawful) {x : Program Req Ans ε α} {f : α → Program Req Ans ε β}
    {after : Except ε β → σ → Prop} (hx : Triple perform T P x post)
    (hf : ∀ a, Triple perform T (post (.ok a)) (f a) after)
    (herror : ∀ e, Triple perform T (post (.error e)) (.done (.error e)) after) :
    Triple perform T P (x >>= f) after := by
  refine hx.andThen hT fun r => ?_
  cases r with
  | ok a => exact hf a
  | error e => exact herror e

theorem Triple.tryCatch (hT : T.Lawful) {x : Program Req Ans ε α}
    {handle : ε → Program Req Ans ε α} {after : Except ε α → σ → Prop}
    (hx : Triple perform T P x post)
    (hok : ∀ a, Triple perform T (post (.ok a)) (.done (.ok a)) after)
    (hhandle : ∀ e, Triple perform T (post (.error e)) (handle e) after) :
    Triple perform T P (MonadExcept.tryCatch x handle) after := by
  refine hx.andThen hT fun r => ?_
  cases r with
  | ok a => exact hok a
  | error e => exact hhandle e

/-- A run in which others come before each request. -/
theorem Safe.exec_among {ν : Type} {before : ν → σ → σ} {moment : ν → μ} {x : Program Req Ans ε α}
    {s : σ} {feed : Nat → ν} {n : Nat} (h : Safe perform T post x s) (hinv : T.inv s)
    (hrefl : ∀ s, T.rely s s)
    (hbefore : ∀ k s, T.inv s → T.inv (before (feed k) s) ∧ T.rely s (before (feed k) s))
    (hfeed : ∀ r k s, T.meets r (moment (feed k)) s) :
    post (x.exec (fun r v s => perform r (moment v) (before v s)) feed n s).1
      (x.exec (fun r v s => perform r (moment v) (before v s)) feed n s).2 := by
  induction x generalizing n s with
  | done r => exact h s hinv (hrefl s)
  | request r next ih =>
    obtain ⟨hinv', hrely⟩ := hbefore n s hinv
    obtain ⟨hinv'', -, hnext⟩ := h _ hinv' hrely (moment (feed n)) (hfeed r n _)
    exact ih _ hnext hinv''

/-- A program that is safe among others is safe alone. -/
theorem Safe.exec {x : Program Req Ans ε α} {s : σ} {feed : Nat → μ} {n : Nat}
    (h : Safe perform T post x s) (hinv : T.inv s) (hrely : ∀ s, T.rely s s)
    (hfeed : ∀ r k s, T.meets r (feed k) s) :
    post (x.exec perform feed n s).1 (x.exec perform feed n s).2 :=
  h.exec_among hinv hrely (fun _ s hs => ⟨hs, hrely s⟩) hfeed

/-! ## Successes and failures -/

section Endings

variable {E E' : σ → Prop} {Q : α → σ → Prop} {R : β → σ → Prop}

/-- What a success and what a failure leaves. -/
def Ends (E : σ → Prop) (Q : α → σ → Prop) : Except ε α → σ → Prop
  | .ok a, s => Q a s
  | .error _, s => E s

/-- Nothing is said of a failure. -/
abbrev OnSuccess (Q : α → σ → Prop) : Except ε α → σ → Prop := Ends (fun _ => True) Q

/-- Others leave alone what a failure leaves. -/
structure Terms.Frame (T : Terms Req μ σ) (E : σ → Prop) : Prop extends T.Lawful where
  failure : Stable T E

theorem Stable.ends (hE : Stable T E) (hQ : ∀ a, Stable T (Q a)) (r : Except ε α) :
    Stable T (Ends E Q r) := by
  cases r with
  | ok a => exact hQ a
  | error e => exact hE

/-- A request that leaves the state alone. -/
theorem Triple.unchanged {r : Req} (hP : Stable T P) (hE : Stable T E)
    (hsame : ∀ m s, (perform r m s).2 = s) (hguar : ∀ s, T.guar r s s)
    (herror : ∀ m s e, P s → (perform r m s).1 = .error e → E s) :
    Triple perform T P (Program.call r) (Ends E fun _ => P) := by
  refine Triple.call hP (Stable.ends hE fun _ => hP) fun m s hinv hs _ => ?_
  rw [hsame]
  refine ⟨hinv, hguar s, ?_⟩
  cases hresult : (perform r m s).1 with
  | ok a => exact hs
  | error e => exact herror m s e hs hresult

theorem Triple.ends_mono {Q' : α → σ → Prop} {x : Program Req Ans ε α}
    (h : Triple perform T P x (Ends E Q)) (hpre : ∀ s, T.inv s → P' s → P s)
    (hpost : ∀ a s, Q a s → Q' a s) : Triple perform T P' x (Ends E Q') := by
  refine h.mono hpre fun r s hr => ?_
  cases r with
  | ok a => exact hpost a s hr
  | error e => exact hr

theorem Triple.pure_ends {a : α} (hpre : Stable T P) (h : ∀ s, T.inv s → P s → Q a s) :
    Triple perform T P (pure a) (Ends E Q) :=
  Triple.done hpre h

theorem Triple.throw_ends (hT : T.Frame E) {e : ε} (h : ∀ s, T.inv s → P s → E s) :
    Triple perform T P (throw e) (Ends E Q) :=
  fun s hinv hs s' hinv' hs' => hT.failure s s' (h s hinv hs) hinv' hs'

theorem Triple.bind_ends (hT : T.Frame E) {x : Program Req Ans ε α} {f : α → Program Req Ans ε β}
    (hx : Triple perform T P x (Ends E Q)) (hf : ∀ a, Triple perform T (Q a) (f a) (Ends E R)) :
    Triple perform T P (x >>= f) (Ends E R) :=
  hx.bind hT.toLawful hf fun _ => Triple.throw_ends hT fun _ _ h => h

theorem Triple.map_ends (hT : T.Frame E) {x : Program Req Ans ε α} {f : α → β}
    (hx : Triple perform T P x (Ends E fun a => R (f a))) (hR : ∀ b, Stable T (R b)) :
    Triple perform T P (f <$> x) (Ends E R) :=
  hx.bind_ends hT fun a => Triple.pure_ends (hR (f a)) fun _ _ h => h

theorem Triple.tryCatch_ends (hT : T.Lawful) {x : Program Req Ans ε α}
    {handle : ε → Program Req Ans ε α} (hx : Triple perform T P x (Ends E Q))
    (hQ : ∀ a, Stable T (Q a)) (hhandle : ∀ e, Triple perform T E (handle e) (Ends E' Q)) :
    Triple perform T P (MonadExcept.tryCatch x handle) (Ends E' Q) :=
  hx.tryCatch hT (fun a => Triple.pure_ends (hQ a) fun _ _ h => h) hhandle

/-- A loop has an assertion for what is left of its list. -/
theorem Triple.foldlM_ends (hT : T.Frame E) {γ : Type} {f : α → γ → Program Req Ans ε α}
    {I : List γ → α → σ → Prop} (hI : ∀ a, Stable T (I [] a))
    (hf : ∀ x l a, Triple perform T (I (x :: l) a) (f a x) (Ends E (I l))) (l : List γ) (a : α) :
    Triple perform T (I l a) (l.foldlM f a) (Ends E (I [])) := by
  induction l generalizing a with
  | nil => exact Triple.pure_ends (hI a) fun _ _ h => h
  | cons x l ih => exact (hf x l a).bind_ends hT fun b => ih b

end Endings

end Program
