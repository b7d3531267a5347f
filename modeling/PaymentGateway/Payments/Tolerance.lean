import Mathlib.Data.Rat.Floor
import PaymentGateway.Payments.Evaluation

/-!
# The tolerance band

A payment is accepted in a band around the required amount. Each limit is the required amount and an
allowance, the exact share of it rounded down.

**Theorem (`evaluatePayment_exact`).** On a positive required amount and accepted tolerances the
evaluation succeeds. Its outcome is the place of the received amount among zero and the two limits
(`Banded`), so it goes up with the received amount, and what was accepted stays accepted when a
tolerance is widened.
-/

namespace PaymentGateway

/-- Nothing, too little, enough, too much. -/
def PaymentOutcome.rank : PaymentOutcome → Nat
  | .none => 0
  | .underpaid => 1
  | .exact => 2
  | .overpaid => 3

/-- A tolerance that the evaluation takes. Where it is left out it is zero. -/
def Tolerated (bps : Option Int) : Prop := 0 ≤ bps.getD 0 ∧ bps.getD 0 ≤ 10000

instance (bps : Option Int) : Decidable (Tolerated bps) := inferInstanceAs (Decidable (_ ∧ _))

/-- What the evaluation of a received amount says. -/
structure Banded (required received lower upper : Int) (e : PaymentEvaluation) : Prop where
  none : e.outcome = .none ↔ received = 0
  underpaid : e.outcome = .underpaid ↔
    received ≠ 0 ∧ received < required - ⌊(required * lower / 10000 : ℚ)⌋
  exact : e.outcome = .exact ↔ received ≠ 0 ∧
    required - ⌊(required * lower / 10000 : ℚ)⌋ ≤ received ∧
      received ≤ required + ⌊(required * upper / 10000 : ℚ)⌋
  overpaid : e.outcome = .overpaid ↔ required + ⌊(required * upper / 10000 : ℚ)⌋ < received
  satisfies : e.satisfiesInvoice = true ↔ e.outcome = .exact
  status : statusForOutcome e.outcome = some .paid ↔ e.outcome = .exact
  balance : e.shortfall.units - e.excess.units = required - received
  apart : (0 ≤ e.shortfall.units ∧ e.excess.units = 0) ∨
    (e.shortfall.units = 0 ∧ 0 ≤ e.excess.units)

/-! ## The limits -/

/-- An allowance is the exact share, rounded down. -/
theorem allowance_eq (required bps : Int) :
    required * bps / 10000 = ⌊(required * bps / 10000 : ℚ)⌋ := by
  have h := Rat.floor_intCast_div_natCast (required * bps) 10000
  push_cast at h
  exact h.symm

theorem allowance_mono {required bps bps' : Int} (hrequired : 0 < required) (h : bps ≤ bps') :
    required * bps / 10000 ≤ required * bps' / 10000 :=
  Int.ediv_le_ediv (by decide) (Int.mul_le_mul_of_nonneg_left h hrequired.le)

theorem allowance_nonneg {required bps : Int} (hrequired : 0 < required) (h : 0 ≤ bps) :
    0 ≤ required * bps / 10000 :=
  Int.ediv_nonneg (Int.mul_nonneg hrequired.le h) (by decide)

/-! ## The outcome -/

section Outcome

variable {required received lower upper : Int}

/-- A greater amount never has a lower outcome. -/
theorem outcomeOf_mono (hreceived : 0 ≤ received) {received' : Int} (h : received ≤ received') :
    (outcomeOf required received lower upper).rank ≤
      (outcomeOf required received' lower upper).rank := by
  by_cases hzero : received = 0
  · simp [outcomeOf, hzero, PaymentOutcome.rank]
  · have hzero' : received' ≠ 0 := by omega
    unfold outcomeOf
    rw [if_neg hzero, if_neg hzero']
    split_ifs <;> simp only [PaymentOutcome.rank] <;> omega

/-- What was accepted is accepted in a wider band. -/
theorem outcomeOf_widen (hrequired : 0 < required) {lower' upper' : Int} (hlower : lower ≤ lower')
    (hupper : upper ≤ upper') (h : outcomeOf required received lower upper = .exact) :
    outcomeOf required received lower' upper' = .exact := by
  have hl := allowance_mono hrequired hlower
  have hu := allowance_mono hrequired hupper
  unfold outcomeOf minimumAccepted maximumAccepted at h ⊢
  by_cases hzero : received = 0
  · simp [hzero] at h
  · rw [if_neg hzero] at h ⊢
    split_ifs at h
    rw [if_neg (by omega), if_neg (by omega)]

end Outcome

/-! ## The evaluation -/

section Evaluation

variable (asset : String) (decimals : Nat) {required received : Int} {lower upper : Option Int}

/-- An evaluation within one asset. -/
def inputOf (required received : Int) (lower upper : Option Int) : EvaluatePaymentInput :=
  ⟨⟨required, asset, decimals⟩, ⟨received, asset, decimals⟩, lower, upper⟩

/-- What the evaluation answers. -/
theorem evaluatePayment_eq (hrequired : 0 < required) (hlower : Tolerated lower)
    (hupper : Tolerated upper) :
    evaluatePayment (inputOf asset decimals required received lower upper) = .ok
      ⟨outcomeOf required received (lower.getD 0) (upper.getD 0),
        ⟨if received < required then required - received else 0, asset, decimals⟩,
        ⟨if required < received then received - required else 0, asset, decimals⟩,
        ⟨minimumAccepted required (lower.getD 0), asset, decimals⟩,
        ⟨maximumAccepted required (upper.getD 0), asset, decimals⟩,
        decide (outcomeOf required received (lower.getD 0) (upper.getD 0) = .exact)⟩ := by
  have hcmp : assertComparable ⟨required, asset, decimals⟩ ⟨received, asset, decimals⟩ = .ok () :=
    if_neg (by simp)
  have hpos : assertPositive ⟨required, asset, decimals⟩ = .ok () :=
    if_pos (decide_eq_true hrequired)
  have hunder := Money.percentageBps_floor required asset decimals hrequired.le hlower.1
  have habove := Money.percentageBps_floor required asset decimals hrequired.le hupper.1
  simp only [evaluatePayment, inputOf, hcmp, hpos, validateBps_of_mem _ hlower.1 hlower.2,
    validateBps_of_mem _ hupper.1 hupper.2, hunder, habove, bind, Except.bind, pure, Except.pure,
    Money.subtract_same, Money.add_same, shortfallOf_same, excessOf_same, decideOutcome_same]
  rfl

theorem banded (hrequired : 0 < required) (hlower : Tolerated lower) (hupper : Tolerated upper)
    {e : PaymentEvaluation}
    (h : evaluatePayment (inputOf asset decimals required received lower upper) = .ok e) :
    Banded required received (lower.getD 0) (upper.getD 0) e := by
  rw [evaluatePayment_eq asset decimals hrequired hlower hupper] at h
  obtain rfl := Except.ok.inj h
  have hl := allowance_nonneg hrequired hlower.1
  have hu := allowance_nonneg hrequired hupper.1
  have hstatus : ∀ outcome, statusForOutcome outcome = some .paid ↔ outcome = .exact := by
    intro outcome
    cases outcome <;> simp [statusForOutcome]
  refine ⟨?_, ?_, ?_, ?_, decide_eq_true_iff, hstatus _, ?_, ?_⟩
  iterate 4
    · simp only [← allowance_eq]
      unfold outcomeOf minimumAccepted maximumAccepted
      grind
  · dsimp only
    split_ifs <;> omega
  · dsimp only
    split_ifs <;> omega

/-- **Evaluation is exact and monotone.** -/
theorem evaluatePayment_exact (hrequired : 0 < required) (hreceived : 0 ≤ received)
    (hlower : Tolerated lower) (hupper : Tolerated upper) :
    ∃ e, evaluatePayment (inputOf asset decimals required received lower upper) = .ok e ∧
      Banded required received (lower.getD 0) (upper.getD 0) e ∧
      (∀ received', received ≤ received' → ∃ e',
        evaluatePayment (inputOf asset decimals required received' lower upper) = .ok e' ∧
          e.outcome.rank ≤ e'.outcome.rank) ∧
      ∀ lower' upper', Tolerated lower' → Tolerated upper' → lower.getD 0 ≤ lower'.getD 0 →
        upper.getD 0 ≤ upper'.getD 0 → ∃ e',
          evaluatePayment (inputOf asset decimals required received lower' upper') = .ok e' ∧
            (e.satisfiesInvoice = true → e'.satisfiesInvoice = true) := by
  have heq : evaluatePayment (inputOf asset decimals required received lower upper) = _ :=
    evaluatePayment_eq asset decimals hrequired hlower hupper
  refine ⟨_, heq, banded asset decimals hrequired hlower hupper heq, fun received' hle => ?_,
    fun lower' upper' hlower' hupper' hl hu => ?_⟩
  · exact ⟨_, evaluatePayment_eq asset decimals hrequired hlower hupper,
      outcomeOf_mono hreceived hle⟩
  · refine ⟨_, evaluatePayment_eq asset decimals hrequired hlower' hupper', fun hexact => ?_⟩
    exact decide_eq_true (outcomeOf_widen hrequired hl hu (of_decide_eq_true hexact))

end Evaluation

/-- Half a percent of 199 units is less than one, so 198 are too few; one percent makes them
enough. -/
theorem evaluatePayment_exact_edge :
    ∃ e, evaluatePayment (inputOf "USDT" 6 199 198 (some 50) none) = .ok e ∧
      e.outcome = .underpaid ∧ Banded 199 198 50 0 e := by
  obtain ⟨e, hok, hbanded, -⟩ := evaluatePayment_exact "USDT" 6 (show (0 : Int) < 199 by decide)
    (show (0 : Int) ≤ 198 by decide) (show Tolerated (some 50) by decide)
    (show Tolerated none by decide)
  have hunder : evaluatePayment (inputOf "USDT" 6 199 198 (some 50) none) = .ok
      ⟨.underpaid, ⟨1, "USDT", 6⟩, ⟨0, "USDT", 6⟩, ⟨199, "USDT", 6⟩, ⟨199, "USDT", 6⟩, false⟩ := by
    decide +kernel
  obtain rfl := Except.ok.inj (hok.symm.trans hunder)
  exact ⟨_, hok, rfl, hbanded⟩

end PaymentGateway
