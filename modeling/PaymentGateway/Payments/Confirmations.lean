import PaymentGateway.Shared.Error

/-!
# Confirmations

A merchant may raise the number of confirmations an invoice waits for, never lower it.
-/

namespace PaymentGateway

open Fallible

def isConfirmed (confirmations required : Nat) : Except Error Bool :=
  if required < 1 then
    .error (.payment ("required confirmations must be a positive integer, got " ++
      toString required))
  else
    .ok (decide (confirmations ≥ required))

/-- Effective threshold: the asset's floor, raised by a merchant override. -/
def effectiveConfirmations (assetDefault : Nat) (merchantOverride : Option Int) :
    Except Error Nat :=
  match merchantOverride with
  | none => .ok assetDefault
  | some override =>
    if override < 1 then
      .error (.payment ("confirmation override must be a positive integer, got " ++
        toString override))
    else
      .ok (max assetDefault override.toNat)

@[simp] theorem effectiveConfirmations_none (required : Nat) :
    effectiveConfirmations required none = .ok required := rfl

theorem isConfirmed_of_pos {confirmations required : Nat} (h : 0 < required) :
    isConfirmed confirmations required = .ok (decide (required ≤ confirmations)) := by
  have hne : ¬ required < 1 := by omega
  simp [isConfirmed, hne]

theorem isConfirmed_plain (confirmations required : Nat) :
    Plain (isConfirmed confirmations required) := by
  unfold isConfirmed
  split_ifs
  · exact avoids_error not_false
  · exact avoids_ok _

theorem effectiveConfirmations_plain (assetDefault : Nat) (merchantOverride : Option Int) :
    Plain (effectiveConfirmations assetDefault merchantOverride) := by
  unfold effectiveConfirmations
  split
  · exact avoids_ok _
  · split_ifs
    · exact avoids_error not_false
    · exact avoids_ok _

end PaymentGateway
