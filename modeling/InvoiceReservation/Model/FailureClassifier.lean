import InvoiceReservation.Common.Retry
import InvoiceReservation.Model.Consumer
/-!
# The failure classifier

`src/treasury/retry/failure-classifier.ts` on whatever a function throws: an
error's code can stand in three places, its message in two, and what is
thrown may be no error at all.
-/

namespace InvoiceReservation

/-- What is read of a `driverError` or a `cause`: the properties that are
texts. -/
structure ErrorCause where
  code : Option String := none
  message : Option String := none
  deriving DecidableEq, Repr

/-- An object that is thrown, and whether it is a `PermanentTreasuryError`.
A `driverError` or `cause` that is no object is `none`. -/
structure ErrorObject where
  permanent : Bool := false
  code : Option String := none
  message : Option String := none
  driverError : Option ErrorCause := none
  cause : Option ErrorCause := none
  deriving DecidableEq, Repr

/-- What is thrown: an object, or a value that has no properties to read. -/
inductive Thrown
  | object (error : ErrorObject)
  | value
  deriving DecidableEq, Repr

namespace Thrown

/-- `error instanceof PermanentTreasuryError`. -/
def isPermanent : Thrown → Bool
  | object error => error.permanent
  | value => false

/-- `errorCode`: the error's own, else its driver error's, else its cause's. -/
def errorCode : Thrown → Option String
  | object error =>
    match error.code, error.driverError.bind (·.code) with
    | some direct, _ => some direct
    | none, some driverCode => some driverCode
    | none, none => error.cause.bind (·.code)
  | value => none

/-- `errorMessage`: the error's own, else its cause's. -/
def errorMessage : Thrown → Option String
  | object error =>
    match error.message with
    | some direct => some direct
    | none => error.cause.bind (·.message)
  | value => none

/-- A code of a transient failure: listed, or of five units and a listed
class. -/
def isTransientCode (code : String) : Bool :=
  transientSqlstateCodes.contains code || transientNetworkCodes.contains code ||
    (utf16Length code == 5 &&
      transientSqlstateClasses.contains (String.ofList (code.toList.take 2)))

/-- A message one of the patterns is found in. -/
def isTransientMessage (message : String) : Bool :=
  transientErrorMessages.any fun parts => (textLines message).any (hasInTurn parts)

/-- `isTransientFailure`. -/
def isTransientFailure (error : Thrown) : Bool :=
  error.errorCode.any isTransientCode || error.errorMessage.any isTransientMessage

/-- `classifyFailure`. -/
def classifyFailure (error : Thrown) : FailureClass :=
  if error.isPermanent then .permanent
  else if error.isTransientFailure then .transient
  else .transient

/-- `withRetry` on a function whose calls answer in turn. A stop that is
`exhausted` is a `RetryExhaustedError`. -/
def withRetry {α : Type} (fn : Nat → Except Thrown α) (policy : RetryPolicy) :
    Retries.History Thrown α :=
  Retries.attempts (fun error => error.classifyFailure == .permanent) fn 1 (policy.maxAttempts - 1)

/-- Only a `PermanentTreasuryError` is not tried again. -/
@[simp] theorem classifyFailure_permanent (error : Thrown) :
    error.classifyFailure = .permanent ↔ error.isPermanent = true := by
  unfold classifyFailure
  cases error.isPermanent <;> cases error.isTransientFailure <;> simp

end Thrown

/-! ## The failures of the handlers -/

/-- What a handler's failure is when it is thrown. -/
def Failure.thrown (failure : Failure) : Thrown :=
  .object { code := InvoiceReservation.errorCode failure
            message := some (InvoiceReservation.errorMessage failure) }

end InvoiceReservation
