import InvoiceReservation.Helpers.Consumption
import InvoiceReservation.Properties.OffsetCommits
/-!
# One consumer in two models

The consumer of the database, whose handlers answer as the database does
and whose dead letters are always published, does what the effects of the
general one do, one after another.
-/

namespace InvoiceReservation

open Transactions Retries

/-- The handlers' failures are recognised alike. -/
@[simp] theorem Failure.isTransientFailure_thrown (failure : Failure) :
    failure.thrown.isTransientFailure = isTransientFailure failure := by
  unfold isTransientFailure Thrown.isTransientFailure Failure.thrown
  cases h : errorCode failure <;>
    simp [Thrown.errorCode, Thrown.errorMessage, Thrown.isTransientCode,
      Thrown.isTransientMessage]

variable [Sha256]

/-- What the calls about a message are answered on a database. -/
def answersOn (db : Db) (inbound : InboundMessage) : TreasuryConsumer.Answers where
  handler _ := ((engine.run (dispatch inbound) db).map (·.1)).mapError Failure.thrown
  snapshotHandler _ := ((engine.run (dispatch inbound) db).map (·.1)).mapError Failure.thrown
  publish _ := .ok ()
  commit := .done

/-- What an effect does to what the consumer leaves. -/
def ConsumerState.after (inbound : InboundMessage) (state : ConsumerState) :
    TreasuryConsumer.Effect → ConsumerState
  | .published record (.ok ()) => quarantine inbound record.reason state
  | .committed _ .done => commitOffset inbound state
  | _ => state

variable {policy : RetryPolicy} {config : TreasuryConsumer.Config} {inbound : InboundMessage}
variable {message : TreasuryConsumer.InboundMessage} {state : ConsumerState} {db : Db}

omit [Sha256] in
/-- A handler that is called does nothing that an effect has not done. -/
theorem foldl_after_handled (calls : List (Except Thrown HandleOutcome)) :
    (calls.map TreasuryConsumer.Effect.handled).foldl (ConsumerState.after inbound) state =
      state := by
  induction calls with
  | nil => rfl
  | cons call calls ih => exact ih

theorem publish_answersOn : Thrown.withRetry (answersOn db inbound).publish policy =
    ⟨[.ok ()], .ok ()⟩ := attempts_of_ok rfl

/-- What `quarantine` and the commit after it do. -/
theorem foldl_after_quarantine (reason : QuarantineReason) :
    ((TreasuryConsumer.quarantine policy (answersOn db inbound) message reason).andThen
      (TreasuryConsumer.commitOffset (answersOn db inbound) message)).effects.foldl
        (ConsumerState.after inbound) state =
      commitOffset inbound (quarantine inbound reason state) := by
  rw [TreasuryConsumer.quarantine, publish_answersOn]
  rfl

theorem dispatch_answersOn (attempt : Nat) :
    TreasuryConsumer.dispatch config (answersOn db inbound) message attempt =
      ((engine.run (dispatch inbound) db).map (·.1)).mapError Failure.thrown := by
  unfold TreasuryConsumer.dispatch
  split <;> rfl

/-- What the attempts come to. -/
theorem attempted_answersOn :
    (Thrown.withRetry (TreasuryConsumer.dispatch config (answersOn db inbound) message)
      policy).result =
      match engine.run (dispatch inbound) db with
      | .ok (outcome, _) => .ok outcome
      | .error failure => .error (.exhausted failure.thrown) := by
  have hfn : TreasuryConsumer.dispatch config (answersOn db inbound) message =
      fun _ => ((engine.run (dispatch inbound) db).map (·.1)).mapError Failure.thrown :=
    funext dispatch_answersOn
  rw [hfn, Thrown.withRetry, result_const]
  cases engine.run (dispatch inbound) db with
  | ok answer => rfl
  | error failure =>
    have hfatal : failure.thrown.classifyFailure ≠ .permanent := by
      simp [Failure.thrown, Thrown.isPermanent]
    simp only [Except.map, Except.mapError, Retries.conclude]
    rw [if_neg (by simpa using hfatal)]

/-- **One consumer.** What the consumer of the database leaves is what its
handler leaves there, and the effects of the general one taken in turn. -/
theorem processMessage_agrees : processMessage policy state inbound =
    (TreasuryConsumer.processMessage policy config (answersOn state.db inbound)
      message).effects.foldl (ConsumerState.after inbound)
        { state with db := engine.effect (dispatch inbound) state.db } := by
  rw [TreasuryConsumer.processMessage, List.foldl_append, foldl_after_handled,
    attempted_answersOn]
  unfold processMessage Engine.effect
  rw [attempted_eq]
  cases engine.run (dispatch inbound) state.db with
  | error failure =>
    simp only [TreasuryConsumer.conclude, Failure.isTransientFailure_thrown]
    split
    · rfl
    · rw [foldl_after_quarantine]
  | ok answer =>
    obtain ⟨outcome, db'⟩ := answer
    cases outcome with
    | applied => rfl
    | skipped => rfl
    | quarantined reason =>
      simp only [TreasuryConsumer.conclude]
      rw [foldl_after_quarantine]

end InvoiceReservation
