import Mathlib.Data.List.Basic

/-!
# Serializable transactions

A committed transaction is a record of what it has read and of what it writes: `reads t s` says
that it would have read the same in the state `s`, and `write t s` is `s` after its writes.
`replay` runs records one after the other, newest first in the list, each of which has to find
what it has read. Committed records are *serializable* when they can be replayed in some order.

**Theorem (`Serializable.ordered`).** Of two serializable records one *precedes* the other: it has
read and written in a state from which the other's state has come about by writes. Whatever
writes never take away, a reflexive and transitive relation, leads from the one to the other.
-/

namespace Transactional

universe u v w

variable {σ : Type u} {ε : Type v} {τ : Type w}

/-- What the records of committed transactions mean. -/
structure Isolation (σ : Type u) (ε : Type v) (τ : Type w) where
  reads : τ → σ → Prop
  write : τ → σ → Except ε σ

namespace Isolation

variable (I : Isolation σ ε τ) [∀ t s, Decidable (I.reads t s)] (init : σ)

/-- Run records one after the other, the oldest last in the list. -/
def replay : List τ → Option σ
  | [] => some init
  | t :: order =>
    (replay order).bind fun s => if I.reads t s then (I.write t s).toOption else none

/-- The records can be replayed in some order. -/
def Serializable (committed : List τ) : Prop :=
  ∃ order, order.Perm committed ∧ (I.replay init order).isSome

/-- The first record writes in a state that leads to one in which the second reads. -/
def Precedes (R : σ → σ → Prop) (t t' : τ) : Prop :=
  ∃ s s' a, I.reads t s ∧ I.write t s = .ok s' ∧ R s' a ∧ I.reads t' a

variable {I init}

theorem replay_cons {t : τ} {order : List τ} {s' : σ} :
    I.replay init (t :: order) = some s' ↔
      ∃ s, I.replay init order = some s ∧ I.reads t s ∧ I.write t s = .ok s' := by
  have htoOption : ∀ s, (I.write t s).toOption = some s' ↔ I.write t s = .ok s' := by
    intro s
    cases I.write t s <;> simp [Except.toOption]
  rw [replay, Option.bind_eq_some_iff]
  refine exists_congr fun s => and_congr_right fun _ => ?_
  by_cases h : I.reads t s
  · simp [h, htoOption]
  · simp [h]

/-- The order of the commits will do when it can be replayed. -/
theorem serializable_of_replay {committed : List τ} (h : (I.replay init committed).isSome) :
    I.Serializable init committed :=
  ⟨committed, .refl _, h⟩

variable {R : σ → σ → Prop}

/-- Every record of a replay has written in a state that leads to the last one. -/
theorem replay_mem (hrefl : ∀ s, R s s) (htrans : ∀ a b c, R a b → R b c → R a c)
    {order : List τ} {last : σ} (h : I.replay init order = some last)
    (hstep : ∀ t ∈ order, ∀ s s', I.reads t s → I.write t s = .ok s' → R s s') :
    ∀ t ∈ order, ∃ s s', I.reads t s ∧ I.write t s = .ok s' ∧ R s' last := by
  induction order generalizing last with
  | nil => exact fun t ht => absurd ht List.not_mem_nil
  | cons t₀ order ih =>
    obtain ⟨s, hs, hreads, hwrite⟩ := replay_cons.1 h
    intro t ht
    rcases List.mem_cons.1 ht with rfl | ht
    · exact ⟨s, last, hreads, hwrite, hrefl last⟩
    · obtain ⟨a, a', ha, ha', hlater⟩ :=
        ih hs (fun x hx => hstep x (List.mem_cons_of_mem _ hx)) t ht
      exact ⟨a, a', ha, ha',
        htrans _ _ _ hlater (hstep t₀ List.mem_cons_self s last hreads hwrite)⟩

/-- **One of two records precedes the other.** -/
theorem Serializable.ordered {committed : List τ} (h : I.Serializable init committed)
    (hrefl : ∀ s, R s s) (htrans : ∀ a b c, R a b → R b c → R a c)
    (hstep : ∀ t ∈ committed, ∀ s s', I.reads t s → I.write t s = .ok s' → R s s')
    {t t' : τ} (ht : t ∈ committed) (ht' : t' ∈ committed) (hne : t ≠ t') :
    I.Precedes R t t' ∨ I.Precedes R t' t := by
  obtain ⟨order, hperm, hreplay⟩ := h
  obtain ⟨last, hlast⟩ := Option.isSome_iff_exists.1 hreplay
  replace hstep : ∀ x ∈ order, ∀ s s', I.reads x s → I.write x s = .ok s' → R s s' :=
    fun x hx => hstep x (hperm.mem_iff.1 hx)
  replace ht : t ∈ order := hperm.mem_iff.2 ht
  replace ht' : t' ∈ order := hperm.mem_iff.2 ht'
  clear hperm hreplay
  induction order generalizing last with
  | nil => exact absurd ht List.not_mem_nil
  | cons t₀ order ih =>
    obtain ⟨s, hs, hreads, -⟩ := replay_cons.1 hlast
    have hrest : ∀ x ∈ order, ∀ s s', I.reads x s → I.write x s = .ok s' → R s s' :=
      fun x hx => hstep x (List.mem_cons_of_mem _ hx)
    have hearlier := replay_mem hrefl htrans hs hrest
    -- Whichever of the two comes last has read what all others have led to.
    rcases List.mem_cons.1 ht with rfl | hold
    · obtain ⟨a, a', ha, ha', hlater⟩ :=
        hearlier t' ((List.mem_cons.1 ht').resolve_left (Ne.symm hne))
      exact .inr ⟨a, a', s, ha, ha', hlater, hreads⟩
    · rcases List.mem_cons.1 ht' with rfl | hold'
      · obtain ⟨a, a', ha, ha', hlater⟩ := hearlier t hold
        exact .inl ⟨a, a', s, ha, ha', hlater, hreads⟩
      · exact ih s hs hrest hold hold'

end Isolation

end Transactional
