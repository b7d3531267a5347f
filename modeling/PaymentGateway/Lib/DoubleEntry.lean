import Mathlib.Algebra.BigOperators.Group.List.Basic
import Mathlib.Data.List.Dedup

/-!
# Double entry

A leg moves an amount into or out of an account; a posting is a list of legs. The net of an
account is what its legs sum to, debits counted up and credits down.

* `sum_net` — the nets of distinct accounts sum to the legs on them: summing by account and
  summing by leg are the same.
* `two_sides` — when the legs that every posting has on some accounts cancel, the nets of one
  part of these accounts are what the nets of the other part lack: the balances of the accounts
  that grow on the debit side equal those of the accounts that grow on the credit side.
* `net_eq_zero_of_total` — legs that cancel as a whole, with no two accounts out of balance, cancel
  on every account.
-/

namespace DoubleEntry

universe u v

variable {α : Type u} {M : Type v} [AddCommGroup M]

structure Leg (α : Type u) (M : Type v) where
  account : α
  debit : Bool
  amount : M

/-- Debits count up, credits down. -/
def Leg.signed (l : Leg α M) : M := if l.debit then l.amount else -l.amount

/-- The legs on accounts with a property, summed. -/
def netOn (p : α → Prop) [DecidablePred p] (legs : List (Leg α M)) : M :=
  ((legs.filter fun l => p l.account).map Leg.signed).sum

variable {p : α → Prop} [DecidablePred p]

@[simp] theorem netOn_nil : netOn p ([] : List (Leg α M)) = 0 := rfl

theorem netOn_cons (l : Leg α M) (legs : List (Leg α M)) :
    netOn p (l :: legs) = (if p l.account then l.signed else 0) + netOn p legs := by
  unfold netOn
  by_cases h : p l.account <;> simp [h]

theorem netOn_append (legs legs' : List (Leg α M)) :
    netOn p (legs ++ legs') = netOn p legs + netOn p legs' := by
  simp [netOn]

theorem netOn_sum (postings : List (List (Leg α M))) :
    netOn p postings.flatten = (postings.map (netOn p)).sum := by
  induction postings with
  | nil => rfl
  | cons x postings ih => rw [List.flatten_cons, netOn_append, ih, List.map_cons, List.sum_cons]

theorem netOn_flatten {postings : List (List (Leg α M))} (h : ∀ x ∈ postings, netOn p x = 0) :
    netOn p postings.flatten = 0 := by
  induction postings with
  | nil => rfl
  | cons x postings ih =>
    rw [List.flatten_cons, netOn_append, h x List.mem_cons_self, zero_add]
    exact ih fun y hy => h y (List.mem_cons_of_mem _ hy)

theorem netOn_false {legs : List (Leg α M)} (h : ∀ l ∈ legs, ¬ p l.account) :
    netOn p legs = 0 := by
  have hnone : (legs.filter fun l => p l.account) = [] :=
    List.filter_eq_nil_iff.2 fun l hl => by simp [h l hl]
  unfold netOn
  rw [hnone]
  rfl

variable [DecidableEq α]

/-- What the legs of an account sum to. -/
def net (legs : List (Leg α M)) (a : α) : M := netOn (· = a) legs

/-- One of several distinct accounts has the leg, or none has. -/
theorem sum_map_ite {accounts : List α} (hnodup : accounts.Nodup) (a : α) (m : M) :
    (accounts.map fun b => if a = b then m else 0).sum = if a ∈ accounts then m else 0 := by
  induction accounts with
  | nil => rfl
  | cons b accounts ih =>
    obtain ⟨hb, hrest⟩ := List.nodup_cons.1 hnodup
    rw [List.map_cons, List.sum_cons, ih hrest]
    by_cases h : a = b
    · subst h
      simp [hb]
    · simp [h]

/-- **Summing by account is summing by leg.** -/
theorem sum_net {accounts : List α} (hnodup : accounts.Nodup) (legs : List (Leg α M)) :
    (accounts.map (net legs)).sum = netOn (· ∈ accounts) legs := by
  induction legs with
  | nil =>
    have hzero : accounts.map (net ([] : List (Leg α M))) = accounts.map fun _ => 0 := rfl
    simp [hzero]
  | cons l legs ih =>
    have hcons : accounts.map (net (l :: legs)) =
        accounts.map fun a => (if l.account = a then l.signed else 0) + net legs a :=
      List.map_congr_left fun a _ => netOn_cons l legs
    rw [hcons, List.sum_map_add, sum_map_ite hnodup, ih, netOn_cons]

/-- **The two sides agree.** -/
theorem two_sides {debits credits : List α} (hnodup : (debits ++ credits).Nodup)
    {postings : List (List (Leg α M))}
    (h : ∀ x ∈ postings, netOn (· ∈ debits ++ credits) x = 0) :
    (debits.map (net postings.flatten)).sum =
      (credits.map fun a => -net postings.flatten a).sum := by
  have htotal := sum_net hnodup postings.flatten
  rw [netOn_flatten h, List.map_append, List.sum_append] at htotal
  rw [eq_neg_of_add_eq_zero_left htotal]
  have hneg : ∀ l : List α, -(l.map (net postings.flatten)).sum =
      (l.map fun a => -net postings.flatten a).sum := by
    intro l
    induction l with
    | nil => simp
    | cons a l ih => simp [ih, add_comm]
  exact hneg credits

theorem net_append (legs legs' : List (Leg α M)) (a : α) :
    net (legs ++ legs') a = net legs a + net legs' a := netOn_append legs legs'

/-- **A whole that is balanced and has no two accounts out of balance has none.** -/
theorem net_eq_zero_of_total {legs : List (Leg α M)} (htotal : (legs.map Leg.signed).sum = 0)
    (hpair : ∀ a b, a ≠ b → net legs a = 0 ∨ net legs b = 0) (a : α) : net legs a = 0 := by
  by_contra hne
  have hothers : ∀ b, b ≠ a → net legs b = 0 := fun b hb =>
    (hpair a b (Ne.symm hb)).resolve_left hne
  -- All accounts there are, once each.
  have hall := sum_net (List.nodup_dedup (legs.map (·.account))) legs
  have hevery : netOn (· ∈ (legs.map (·.account)).dedup) legs = (legs.map Leg.signed).sum := by
    have hself : (legs.filter fun l => l.account ∈ (legs.map (·.account)).dedup) = legs :=
      List.filter_eq_self.2 fun l hl =>
        decide_eq_true (List.mem_dedup.2 (List.mem_map_of_mem hl))
    unfold netOn
    rw [hself]
  have hone : (legs.map (·.account)).dedup.map (net legs) =
      (legs.map (·.account)).dedup.map fun b => if a = b then net legs a else 0 := by
    refine List.map_congr_left fun b _ => ?_
    by_cases h : a = b
    · rw [if_pos h, h]
    · rw [if_neg h, hothers b (Ne.symm h)]
  rw [hevery, htotal, hone, sum_map_ite (List.nodup_dedup _)] at hall
  split_ifs at hall with hmem
  · exact hne hall
  · refine hne (netOn_false fun l hl heq => hmem ?_)
    exact List.mem_dedup.2 (heq ▸ List.mem_map_of_mem hl)

end DoubleEntry
