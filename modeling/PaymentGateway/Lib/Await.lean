import Mathlib.Data.List.Basic

/-!
# Programs that await

A process that awaits lets time pass. When it goes on, the world it asks may answer differently,
others may have written to the state they share, its own request may fail, and it may have been
stopped for good. `Await μ σ ε α` is such a process: every await draws the next *moment* from a
feed, and what it has written to the state `σ` stays written when it fails.

`Triple feed pre x post` says what the process leaves behind when it runs on a feed. Assertions see
the time, so they can speak of the moments still to come, and a postcondition sees the result, so
it speaks of failures as well. Two shapes of postconditions compose along a program:

* `Upto inv post` — the invariant holds however the process ended, and `post` if it succeeded
  (`Triple.bind_upto`, `Triple.forM_upto`);
* `Returns post` — the process succeeded, with `post` (`Triple.bind_returns`).

`Rounds` repeats a process, whatever the end of each repetition: what every round keeps, however it
ends, always holds (`Rounds.invariant`). In `Stages` the rounds know how far the world has come by
then, and so does their invariant.
-/

universe u v w x

/-- How a process ended, when, and what it left. -/
structure Ended (σ : Type u) (ε : Type v) (α : Type w) where
  result : Except ε α
  time : Nat
  state : σ

/-- A process that draws its moments from a feed, from a given time on. -/
def Await (μ : Type x) (σ : Type u) (ε : Type v) (α : Type w) :=
  (Nat → μ) → Nat → σ → Ended σ ε α

namespace Await

variable {μ : Type x} {σ : Type u} {ε : Type v} {α β : Type w}

/-- One await: what happens in a moment. -/
def step (f : μ → σ → Except ε α × σ) : Await μ σ ε α :=
  fun feed n s => ⟨(f (feed n) s).1, n + 1, (f (feed n) s).2⟩

protected def pure (a : α) : Await μ σ ε α := fun _ n s => ⟨.ok a, n, s⟩

/-- Nothing follows a failure. -/
protected def bind (x : Await μ σ ε α) (f : α → Await μ σ ε β) : Await μ σ ε β :=
  fun feed n s =>
    match x feed n s with
    | ⟨.error e, n', s'⟩ => ⟨.error e, n', s'⟩
    | ⟨.ok a, n', s'⟩ => f a feed n' s'

instance : Monad (Await μ σ ε) where
  pure := Await.pure
  bind := Await.bind

/-! ## Triples -/

variable {feed : Nat → μ} {pre pre' : Nat → σ → Prop}

def Triple (feed : Nat → μ) (pre : Nat → σ → Prop) (x : Await μ σ ε α)
    (post : Except ε α → Nat → σ → Prop) : Prop :=
  ∀ n s, pre n s → post (x feed n s).result (x feed n s).time (x feed n s).state

/-- The invariant holds in any case, the postcondition after a success. -/
def Upto (inv : σ → Prop) (post : α → Nat → σ → Prop) (r : Except ε α) (n : Nat) (s : σ) : Prop :=
  inv s ∧ ∀ a, r = .ok a → post a n s

/-- Success, with the postcondition. -/
def Returns (post : α → Nat → σ → Prop) (r : Except ε α) (n : Nat) (s : σ) : Prop :=
  ∃ a, r = .ok a ∧ post a n s

variable {post post' : Except ε α → Nat → σ → Prop} {after : Except ε β → Nat → σ → Prop}

theorem Triple.mono {x : Await μ σ ε α} (h : Triple feed pre x post)
    (hpre : ∀ n s, pre' n s → pre n s) (hpost : ∀ r n s, post r n s → post' r n s) :
    Triple feed pre' x post' :=
  fun n s hs => hpost _ _ _ (h n s (hpre n s hs))

theorem Triple.step {f : μ → σ → Except ε α × σ}
    (h : ∀ n s, pre n s → post (f (feed n) s).1 (n + 1) (f (feed n) s).2) :
    Triple feed pre (step f) post :=
  fun n s hs => h n s hs

theorem Triple.pure {a : α} (h : ∀ n s, pre n s → post (.ok a) n s) :
    Triple feed pre (Pure.pure a : Await μ σ ε α) post :=
  fun n s hs => h n s hs

theorem Triple.bind {x : Await μ σ ε α} {f : α → Await μ σ ε β} (hx : Triple feed pre x post)
    (hf : ∀ a, Triple feed (post (.ok a)) (f a) after)
    (herror : ∀ e n s, post (.error e) n s → after (.error e) n s) :
    Triple feed pre (x >>= f) after := by
  intro n s hs
  have hfirst := hx n s hs
  show after (Await.bind x f feed n s).result (Await.bind x f feed n s).time
    (Await.bind x f feed n s).state
  unfold Await.bind
  cases hend : x feed n s with
  | mk r n' s' =>
    rw [hend] at hfirst
    cases r with
    | error e => exact herror e n' s' hfirst
    | ok a => exact hf a n' s' hfirst

/-! ## Invariants -/

section Upto

variable {inv : σ → Prop} {mid : α → Nat → σ → Prop} {last : β → Nat → σ → Prop}

theorem Triple.pure_upto {a : α} (h : ∀ n s, pre n s → inv s ∧ mid a n s) :
    Triple feed pre (Pure.pure a : Await μ σ ε α) (Upto inv mid) := by
  refine Triple.pure fun n s hs => ⟨(h n s hs).1, fun b hb => ?_⟩
  cases hb
  exact (h n s hs).2

theorem Triple.bind_upto {x : Await μ σ ε α} {f : α → Await μ σ ε β}
    (hx : Triple feed pre x (Upto inv mid))
    (hf : ∀ a, Triple feed (fun n s => inv s ∧ mid a n s) (f a) (Upto inv last)) :
    Triple feed pre (x >>= f) (Upto inv last) := by
  refine hx.bind (fun a => (hf a).mono (fun n s hs => ⟨hs.1, hs.2 a rfl⟩) fun _ _ _ h => h) ?_
  exact fun e n s hs => ⟨hs.1, fun b hb => by cases hb⟩

/-- A loop whose postcondition knows what is done. -/
theorem Triple.forM_upto {ι : Type w} {f : ι → Await μ σ ε PUnit} {l : List ι}
    {done : List ι → Nat → σ → Prop}
    (hf : ∀ before i after, l = before ++ i :: after →
      Triple feed (fun n s => inv s ∧ done before n s) (f i)
        (Upto inv fun _ => done (before ++ [i]))) :
    Triple feed (fun n s => inv s ∧ done [] n s) (l.forM f) (Upto inv fun _ => done l) := by
  have hgeneral : ∀ rest before, l = before ++ rest →
      Triple feed (fun n s => inv s ∧ done before n s) (rest.forM f)
        (Upto inv fun _ => done l) := by
    intro rest
    induction rest with
    | nil =>
      intro before hl
      rw [List.append_nil] at hl
      exact Triple.pure_upto fun n s hs => hl ▸ hs
    | cons i rest ih =>
      intro before hl
      refine (hf before i rest hl).bind_upto fun _ => ih (before ++ [i]) ?_
      rw [hl, List.append_assoc, List.singleton_append]
  exact hgeneral l [] rfl

end Upto

/-! ## Success -/

section Returns

variable {mid : α → Nat → σ → Prop} {last : β → Nat → σ → Prop}

theorem Triple.pure_returns {a : α} (h : ∀ n s, pre n s → mid a n s) :
    Triple feed pre (Pure.pure a : Await μ σ ε α) (Returns mid) :=
  Triple.pure fun n s hs => ⟨a, rfl, h n s hs⟩

theorem Triple.bind_returns {x : Await μ σ ε α} {f : α → Await μ σ ε β}
    (hx : Triple feed pre x (Returns mid)) (hf : ∀ a, Triple feed (mid a) (f a) (Returns last)) :
    Triple feed pre (x >>= f) (Returns last) := by
  refine hx.bind (fun a => (hf a).mono (fun n s hs => ?_) fun _ _ _ h => h) ?_
  · obtain ⟨b, hb, hs⟩ := hs
    cases hb
    exact hs
  · rintro e n s ⟨b, hb, -⟩
    cases hb

end Returns

/-! ## Rounds -/

/-- One run of a process after the other, each on a feed of its own. -/
inductive Rounds (ok : (Nat → μ) → Prop) (process : Await μ σ ε α) (s : σ) : σ → Prop
  | start : Rounds ok process s s
  | round {s' : σ} (h : Rounds ok process s s') (feed : Nat → μ) (hfeed : ok feed) :
      Rounds ok process s (process feed 0 s').state

theorem Rounds.invariant {ok : (Nat → μ) → Prop} {process : Await μ σ ε α} {inv : σ → Prop}
    {s s' : σ} (h : Rounds ok process s s') (h0 : inv s)
    (hround : ∀ feed, ok feed → Triple feed (fun _ => inv) process fun _ _ => inv) : inv s' := by
  induction h with
  | start => exact h0
  | round _ feed hfeed ih => exact hround feed hfeed 0 _ ih

/-- Rounds in a world that goes on: each leads from one stage of it to another. -/
inductive Stages {ι : Type*} (ok : ι → (Nat → μ) → ι → Prop) (process : Await μ σ ε α) (i : ι)
    (s : σ) : ι → σ → Prop
  | start : Stages ok process i s i s
  | stage {j k : ι} {s' : σ} (h : Stages ok process i s j s') (feed : Nat → μ)
      (hfeed : ok j feed k) : Stages ok process i s k (process feed 0 s').state

theorem Stages.invariant {ι : Type*} {ok : ι → (Nat → μ) → ι → Prop} {process : Await μ σ ε α}
    {inv : ι → σ → Prop} {i j : ι} {s s' : σ} (h : Stages ok process i s j s') (h0 : inv i s)
    (hstage : ∀ j feed k, ok j feed k →
      Triple feed (fun _ => inv j) process fun _ _ => inv k) : inv j s' := by
  induction h with
  | start => exact h0
  | stage _ feed hfeed ih => exact hstage _ feed _ hfeed 0 _ ih

end Await
