import InvoiceReservation.Helpers.Recovery
import InvoiceReservation.Model.Seed
/-!
# Restores

A restore takes the database back and leaves the committed offsets, and
consumption goes on at these. A message that was applied after the restore
point and whose offset the group has then committed past is read no more:
it is lost to a program whose mark the detection leaves. The detection
compares what one backup holds, where the ledger and the stream positions
are of one age, and says nothing about the offsets.
-/

namespace InvoiceReservation

open Transactions

/-! ## Outages -/

/-- A run, cut at the state that is restored at its end. -/
structure Outage where
  start : ConsumerState
  before : List Activity
  after : List Activity

/-- Consumption resumes beyond a message: the group has committed a later
offset, or has committed none and goes on at the end of the log. -/
def ConsumerState.ResumesBeyond (state : ConsumerState) (coordinates : StreamCoordinates) : Prop :=
  ∀ next, state.groupOffset coordinates.topic coordinates.partition = some next →
    coordinates.offset < next

variable [Sha256] (policy : RetryPolicy)

/-- The messages that activities apply. -/
def appliedMessages : List Activity → ConsumerState → List InboundMessage
  | [], _ => []
  | activity :: activities, state =>
    (activity.inbound?.filter fun inbound => handledAs inbound state.db = some .applied).toList ++
      appliedMessages activities (activity.perform policy state)

/-- A snapshot of a program is applied on the way. -/
def Renewed (p : Uuid) : List InboundMessage → ConsumerState → Prop
  | [], _ => False
  | inbound :: order, state =>
    inbound.IsSnapshotOf p ∧ handledAs inbound state.db = some .applied ∨
      Renewed p order (processMessage policy state inbound)

namespace Outage

variable (o : Outage)

/-- The state that is restored. -/
def backup : ConsumerState := performAll policy o.before o.start

/-- The state before the restore. -/
def last : ConsumerState := performAll policy o.after (o.backup policy)

/-- The state after the restore and the boot. -/
def restored : ConsumerState := restore (o.backup policy).db (o.last policy)

/-- **No undetected hole.** However consumption goes on, a program that is
verified, and not by a snapshot since, lacks no message that was applied
and is read no more. -/
def NoHole : Prop :=
  ∀ further p, Verified p (consume policy further (o.restored policy)).db →
    ¬ Renewed policy p further (o.restored policy) →
    ∀ inbound ∈ appliedMessages policy (o.before ++ o.after) o.start,
      Uuid.ofText inbound.message.programId = p →
      ¬ ((o.restored policy).db.message? inbound.message.messageId = none ∧
        (o.restored policy).ResumesBeyond inbound.coordinates)

/-- Of a program that is verified at the restore point, and has no treasury
entry there or a stream position as new as the newest of them, no message
that is applied after it is committed past. -/
def CommitsNoneSince : Prop :=
  ∀ p, Verified p (o.backup policy).db →
    (recoveryRow (o.backup policy).db p).passed = true →
    ∀ inbound ∈ appliedMessages policy o.after (o.backup policy),
      Uuid.ofText inbound.message.programId = p →
      ¬ (o.last policy).ResumesBeyond inbound.coordinates

end Outage

/-! ## What was applied -/

variable {policy} {state : ConsumerState} {inbound : InboundMessage} {messageId : String}
variable {activity : Activity} {activities later : List Activity} {p : Uuid}

theorem performAll_cons : performAll policy (activity :: activities) state =
    performAll policy activities (activity.perform policy state) := rfl

theorem mem_applied_cons : inbound ∈ appliedMessages policy (activity :: activities) state ↔
    activity.inbound? = some inbound ∧ handledAs inbound state.db = some .applied ∨
      inbound ∈ appliedMessages policy activities (activity.perform policy state) := by
  rw [appliedMessages, List.mem_append, Option.mem_toList, Option.filter_eq_some_iff,
    decide_eq_true_eq]

theorem applied_append : appliedMessages policy (activities ++ later) state =
    appliedMessages policy activities state ++
      appliedMessages policy later (performAll policy activities state) := by
  induction activities generalizing state with
  | nil => rfl
  | cons activity activities ih =>
    rw [List.cons_append, appliedMessages, appliedMessages, ih, performAll_cons, List.append_assoc]

/-- What is recorded stays over activities. -/
theorem message?_performAll (h : (state.db.message? messageId).isSome = true) :
    ((performAll policy activities state).db.message? messageId).isSome = true := by
  induction activities generalizing state with
  | nil => exact h
  | cons activity activities ih => exact ih (message?_perform activity h)

/-- What was applied is recorded. -/
theorem recorded_of_mem_applied (h : inbound ∈ appliedMessages policy activities state) :
    ((performAll policy activities state).db.message? inbound.message.messageId).isSome = true := by
  induction activities generalizing state with
  | nil => cases h
  | cons activity activities ih =>
    rcases mem_applied_cons.mp h with ⟨hinbound, happlied⟩ | h
    · have hnow : ((activity.perform policy state).db.message?
          inbound.message.messageId).isSome = true := by
        rw [perform_db, effect_of_inbound? hinbound]
        exact (recorded_of_applied happlied).2
      rw [performAll_cons]
      exact message?_performAll hnow
    · exact ih h

/-- What is still to be applied is not recorded yet. -/
theorem unrecorded_of_mem_applied (h : inbound ∈ appliedMessages policy activities state) :
    state.db.message? inbound.message.messageId = none := by
  induction activities generalizing state with
  | nil => cases h
  | cons activity activities ih =>
    rcases mem_applied_cons.mp h with ⟨-, happlied⟩ | h
    · exact (recorded_of_applied happlied).1
    · have hlater := ih h
      cases hnow : state.db.message? inbound.message.messageId with
      | none => rfl
      | some row =>
        have hkept : ((activity.perform policy state).db.message?
            inbound.message.messageId).isSome = true :=
          message?_perform activity (by rw [hnow]; rfl)
        rw [hlater] at hkept
        cases hkept

/-- **A mark that no snapshot renewed is an old one.** -/
theorem verified_of_consume {further : List InboundMessage}
    (h : Verified p (consume policy further state).db)
    (hrenewed : ¬ Renewed policy p further state) :
    Verified p state.db := by
  induction further generalizing state with
  | nil => exact h
  | cons inbound further ih =>
    have hnext := ih h fun hlater => hrenewed (Or.inr hlater)
    rw [processMessage_db] at hnext
    cases hrun : engine.run (dispatch inbound) state.db with
    | error failure => rwa [Engine.effect_of_run_error hrun] at hnext
    | ok answer =>
      obtain ⟨handled, db'⟩ := answer
      rw [Engine.effect_of_run_ok hrun] at hnext
      rcases verified_dispatch hrun hnext with hbefore | ⟨hsnapshot, rfl⟩
      · exact hbefore
      · exact absurd (Or.inl ⟨hsnapshot, handledAs_eq_some.mpr ⟨db', hrun⟩⟩) hrenewed

/-! ## Restores -/

/-- **A restore leaves no undetected hole just where nothing that was
applied since the restore point, of a program the detection passes over,
was committed past.** -/
theorem restore_leaves_no_hole_iff (policy : RetryPolicy) (o : Outage) :
    o.NoHole policy ↔ o.CommitsNoneSince policy := by
  constructor
  · intro h p hverified hpassed inbound hinbound hprogram hbeyond
    have hmark : Verified p (o.restored policy).db := verified_detect.mpr ⟨hverified, hpassed⟩
    have happlied : inbound ∈ appliedMessages policy (o.before ++ o.after) o.start := by
      rw [applied_append]
      exact List.mem_append_right _ hinbound
    have hnone : (o.restored policy).db.message? inbound.message.messageId = none :=
      message?_detect.trans (unrecorded_of_mem_applied hinbound)
    exact h [] p hmark not_false inbound happlied hprogram ⟨hnone, hbeyond⟩
  · rintro h further p hverified hrenewed inbound happlied hprogram ⟨hnone, hbeyond⟩
    obtain ⟨hbackup, hpassed⟩ := verified_detect.mp (verified_of_consume hverified hrenewed)
    rw [applied_append] at happlied
    rcases List.mem_append.mp happlied with hbefore | hafter
    · -- it was applied before the restore point, and so the backup has it
      have hsome := recorded_of_mem_applied hbefore
      have hrestored : (o.backup policy).db.message? inbound.message.messageId = none :=
        message?_detect.symm.trans hnone
      rw [Outage.backup] at hrestored
      rw [hrestored] at hsome
      cases hsome
    · exact h p hbackup hpassed inbound hafter hprogram hbeyond

end InvoiceReservation

namespace InvoiceReservation

open Transactions

attribute [local instance] trafficSha256

/-- The second of two bookings, which comes after the restore point. -/
def secondBooking : InboundMessage :=
  deliverAt 2 (.event (capacityEvent "evt-00002" 2 .reservationBooked 100))

/-- Two bookings, each applied and committed, and a restore of the state
between them. -/
def restoredBetween : Outage where
  start := freshConsumer
  before := [.message (deliverAt 1 (.event (capacityEvent "evt-00001" 1 .reservationBooked 100)))]
  after := [.message secondBooking]

theorem restoredBetween_leaves_hole : ¬ restoredBetween.NoHole defaultPolicy := by
  intro h
  have hbackup : restoredBetween.backup defaultPolicy =
      performAll defaultPolicy restoredBetween.before ⟨seededRows, [], []⟩ := by
    rw [Outage.backup, restoredBetween, freshConsumer_eq]
  have hverified : ((restoredBetween.backup defaultPolicy).db.program?
      (Uuid.ofText northwindUsdProgramId)).map (·.positionVerified) = some true := by
    rw [hbackup]
    decide +kernel
  have hpassed : (recoveryRow (restoredBetween.backup defaultPolicy).db
      (Uuid.ofText northwindUsdProgramId)).passed = true := by
    rw [hbackup]
    decide +kernel
  have happlied : handledAs secondBooking (restoredBetween.backup defaultPolicy).db =
      some .applied := by
    rw [hbackup]
    decide +kernel
  have hnone : ((restoredBetween.backup defaultPolicy).db.message? "evt-00002").isNone = true := by
    rw [hbackup]
    decide +kernel
  have hoffset : (restoredBetween.restored defaultPolicy).groupOffset
      "treasury.capacity.events" 0 = some 3 := by
    rw [Outage.restored, Outage.last, hbackup]
    decide +kernel
  obtain ⟨program, hfound, hmark⟩ := Option.map_eq_some_iff.mp hverified
  have hmem : secondBooking ∈ appliedMessages defaultPolicy
      (restoredBetween.before ++ restoredBetween.after) restoredBetween.start := by
    rw [applied_append]
    exact List.mem_append_right _ (mem_applied_cons.mpr (Or.inl ⟨rfl, happlied⟩))
  refine h [] (Uuid.ofText northwindUsdProgramId)
    (verified_detect.mpr ⟨⟨program, hfound, hmark⟩, hpassed⟩) not_false secondBooking hmem rfl
    ⟨message?_detect.trans (Option.isNone_iff_eq_none.mp hnone), fun next hnext => ?_⟩
  have heq : some 3 = some next := hoffset.symm.trans hnext
  cases heq
  decide

end InvoiceReservation
