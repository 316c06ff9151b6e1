import InvoiceReservation.Helpers.Changes
import InvoiceReservation.Model.Consumer
/-!
# What the consumer does

Attempts on one state all end as the first does, so a message leaves the
database as its handler would, and is handled as the handler answers.
-/

namespace InvoiceReservation

open Transactions

/-- An outcome that is no quarantine. -/
def HandleOutcome.Accepted (handled : HandleOutcome) : Prop :=
  ∀ reason, handled ≠ .quarantined reason

/-- No failure is permanent. -/
theorem classifyFailure_eq {failure : Failure} : classifyFailure failure = .transient := by
  unfold classifyFailure
  split <;> rfl

/-- **Attempts on one state all end as the first does.** -/
theorem attempts_eq {α : Type} {fn : Db → Except Failure (α × Db)} {db : Db} {left : Nat} :
    attempts fn db left =
      match fn db with
      | .ok answer => .ok answer
      | .error failure => .error (.exhausted failure) := by
  induction left with
  | zero => cases h : fn db <;> simp [attempts, h, classifyFailure_eq]
  | succ left ih => cases h : fn db <;> simp [attempts, h, ih, classifyFailure_eq]

variable [Sha256] {policy : RetryPolicy} {inbound : InboundMessage}
variable {order later : List InboundMessage} {state : ConsumerState}

theorem attempted_eq {db : Db} : attempted policy inbound db =
    match engine.run (dispatch inbound) db with
    | .ok answer => .ok answer
    | .error failure => .error (.exhausted failure) := by
  rw [attempted, withRetry, attempts_eq]
  cases engine.run (dispatch inbound) db <;> rfl

/-- What a message is handled as on a database, where its handler answers. -/
def handledAs (inbound : InboundMessage) (db : Db) : Option HandleOutcome :=
  (engine.run (dispatch inbound) db).toOption.map (·.1)

theorem handledAs_eq_some {db : Db} {o : HandleOutcome} :
    handledAs inbound db = some o ↔ ∃ db', engine.run (dispatch inbound) db = .ok (o, db') := by
  unfold handledAs
  cases engine.run (dispatch inbound) db with
  | error e => simp [Except.toOption]
  | ok answer => obtain ⟨o', db'⟩ := answer; simp [Except.toOption]

/-- **A message leaves the database as its handler does.** -/
theorem processMessage_db :
    (processMessage policy state inbound).db = engine.effect (dispatch inbound) state.db := by
  unfold processMessage Engine.effect
  rw [attempted_eq]
  cases engine.run (dispatch inbound) state.db with
  | error failure => dsimp only; split <;> rfl
  | ok answer =>
    obtain ⟨o, db'⟩ := answer
    cases o <;> rfl

theorem processMessage_db_of_ok {o : HandleOutcome} {db' : Db}
    (h : engine.run (dispatch inbound) state.db = .ok (o, db')) :
    (processMessage policy state inbound).db = db' := by
  rw [processMessage_db, Engine.effect_of_run_ok h]

@[simp] theorem consume_nil : consume policy [] state = state := rfl

@[simp] theorem consume_cons : consume policy (inbound :: order) state =
    consume policy order (processMessage policy state inbound) := rfl

theorem consume_append : consume policy (order ++ later) state =
    consume policy later (consume policy order state) := List.foldl_append

@[simp] theorem handled_nil : handled policy [] state = [] := rfl

@[simp] theorem handled_cons : handled policy (inbound :: order) state =
    handledAs inbound state.db :: handled policy order (processMessage policy state inbound) := by
  rw [handled, attempted_eq, handledAs]
  cases engine.run (dispatch inbound) state.db <;> rfl

theorem handled_append : handled policy (order ++ later) state =
    handled policy order state ++ handled policy later (consume policy order state) := by
  induction order generalizing state with
  | nil => rfl
  | cons inbound order ih => simp [ih]

/-- A handled message is a change, or none. -/
theorem dispatch_changes {db db' : Db} {o : HandleOutcome}
    (h : engine.run (dispatch inbound) db = .ok (o, db')) : Changes db db' := by
  unfold dispatch at h
  cases hm : inbound.message with
  | event message => rw [hm] at h; exact (handleEvent_change h).to_reflTransGen
  | snapshot message => rw [hm] at h; exact (handleSnapshot_change h).to_reflTransGen

/-- **The run rule for the consumer.** -/
theorem consume_induct {P : Db → Prop} (hstep : ∀ c c', P c → Change c c' → P c')
    (policy : RetryPolicy) (order : List InboundMessage) (h : P state.db) :
    P (consume policy order state).db := by
  induction order generalizing state with
  | nil => exact h
  | cons inbound order ih =>
    refine ih ?_
    rw [processMessage_db]
    refine Engine.effect_induct h fun o db' hr => ?_
    have hch := dispatch_changes hr
    clear hr
    induction hch with
    | refl => exact h
    | tail _ hs ih => exact hstep _ _ ih hs

end InvoiceReservation
