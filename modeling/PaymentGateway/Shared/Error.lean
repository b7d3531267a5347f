import PaymentGateway.Lib.Fallible
import PaymentGateway.Shared.Status

/-!
# Failures

What the services throw. A failure inside a database transaction rolls the whole transaction
back, so the constructors matter only to the caller; the state machine's rejection keeps the two
statuses it names.
-/

namespace PaymentGateway

inductive Error
  /-- `InvalidTransitionError`: the state machine rejects a status change. -/
  | invalidTransition (source target : InvoiceStatus) (detail : String)
  | money (message : String)
  | ledgerPosting (message : String)
  /-- A plain `Error` of the payments or the blockchain package. -/
  | payment (message : String)
  /-- `AppError` with its HTTP status. -/
  | app (status : Nat) (message : String)
  | blockchainAdapter (message : String)
  /-- P2002: a row with this unique key exists. -/
  | uniqueViolation (model : String)
  /-- P2025: `findUniqueOrThrow` or `update` found no row. -/
  | recordNotFound (model : String)
  /-- A CHECK constraint or an integrity trigger refused the row. -/
  | checkViolation (constraint : String)
  deriving DecidableEq, Repr

/-- `NotFoundError`. -/
def Error.notFound (resource : String) : Error := .app 404 (resource ++ " not found")

/-- `ConflictError`. -/
def Error.conflict (message : String) : Error := .app 409 message

/-- Whether a failure is the state machine's. -/
def Error.IsInvalidTransition : Error → Prop
  | .invalidTransition _ _ _ => True
  | _ => False

instance : DecidablePred Error.IsInvalidTransition := fun e => by
  cases e <;> unfold Error.IsInvalidTransition <;> infer_instance

/-- A webhook event that has been emitted before. -/
def Error.IsWebhookClash (e : Error) : Prop := e = .uniqueViolation "WebhookEvent"

/-- Whether a failure is about what an invoice has been through: both kinds above. -/
def Error.OfHistory : Error → Prop
  | .invalidTransition _ _ _ => True
  | .uniqueViolation model => model = "WebhookEvent"
  | _ => False

/-- A chain provider fails with errors of its own. -/
def Error.FromProvider : Error → Prop
  | .blockchainAdapter _ => True
  | _ => False

/-- A computation that the state machine does not reject; it may fail for another reason. -/
abbrev Unrejected {α : Type} (x : Except Error α) : Prop :=
  Fallible.Avoids Error.IsInvalidTransition x

/-- A computation that emits no webhook event a second time. -/
abbrev Unclashing {α : Type} (x : Except Error α) : Prop :=
  Fallible.Avoids Error.IsWebhookClash x

/-- A computation that depends on no invoice's history. -/
abbrev Plain {α : Type} (x : Except Error α) : Prop := Fallible.Avoids Error.OfHistory x

theorem Plain.unrejected {α : Type} {x : Except Error α} (h : Plain x) : Unrejected x := by
  intro e he hrejected
  refine h e he ?_
  cases e <;> first | exact hrejected.elim | trivial

theorem Plain.unclashing {α : Type} {x : Except Error α} (h : Plain x) : Unclashing x := by
  intro e he hclash
  refine h e he ?_
  cases hclash
  rfl

/-- What a provider raises is about no invoice. -/
theorem plain_of_provider {α : Type} {x : Except Error α}
    (h : ∀ e, x = .error e → e.FromProvider) : Plain x := by
  intro e he hhistory
  have hprovider := h e he
  cases e <;> first | exact hprovider.elim | exact hhistory.elim

end PaymentGateway
