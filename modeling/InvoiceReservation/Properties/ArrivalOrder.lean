import InvoiceReservation.Common.Walk
import InvoiceReservation.Helpers.Consumption
import InvoiceReservation.Helpers.NewMessages
import InvoiceReservation.Model.Seed
import InvoiceReservation.Properties.Bounds
/-!
# Reservation events in any order

Reservation events add to TREASURY, and addition has no order; but the
database checks the total after every event. Events that were all applied
in one order are all applied in every order exactly where the total stays
in its bounds with all the releases first, and with all the bookings first.
-/

namespace InvoiceReservation

open Transactions Walks

/-- What an event adds to TREASURY. -/
def CapacityEvent.treasuryDelta (event : CapacityEvent) : Int :=
  match event.type with
  | .reservationBooked => event.payload.amountMinor
  | .reservationReleased => -event.payload.amountMinor
  | .limitChanged => 0

/-- Two events of different ids and versions. -/
def Apart (x y : CapacityEvent) : Prop := x.messageId ≠ y.messageId ∧ x.version ≠ y.version

theorem Apart.symm {x y : CapacityEvent} (h : Apart x y) : Apart y x := ⟨h.1.symm, h.2.symm⟩

/-- An event of a program that is new to it and no echo, and that the
database can hold. -/
structure Applicable (p : Uuid) (currency : String) (db : Db) (event : CapacityEvent) : Prop where
  storable : event.Storable
  correlationId : storableText (event.correlationId.getD event.messageId) = true
  currency : currency = event.payload.currency
  id : db.message? event.messageId = none
  version : db.messagesAt p .event event.version = []
  versionRange : inBigint event.version = true
  noEcho : ∀ reference, ApplyTreasuryEventService.echoReference event = some reference →
    ∀ row ∈ db.reservationsOf p, row.treasuryReference ≠ some reference

/-- Events that are delivered once each, at some instants and places of the
stream. -/
def Delivers (events : List CapacityEvent) (order : List InboundMessage) : Prop :=
  (order.map (·.message)).Perm (events.map .event)

variable {db db' : Db} {p : Uuid} {program : ProgramEntity} {rt : Runtime}
variable {event other : CapacityEvent} {events : List CapacityEvent}
variable {coordinates : StreamCoordinates} {position : ProgramPosition} {now : Timestamp}

/-! ## The advance of a reservation event -/

theorem componentSum_buildEntry (htype : event.type ≠ .limitChanged) {c : PositionComponent} :
    componentSum c [ApplyTreasuryEventService.buildEntry event program] =
      if c = .treasury then event.treasuryDelta else 0 := by
  cases h : event.type with
  | limitChanged => exact absurd h htype
  | reservationBooked =>
    cases c <;> simp [componentSum_singleton, ApplyTreasuryEventService.buildEntry,
      CapacityEvent.treasuryDelta, h]
  | reservationReleased =>
    cases c <;> simp [componentSum_singleton, ApplyTreasuryEventService.buildEntry,
      CapacityEvent.treasuryDelta, h]

theorem buildEntry_deltaMinor (htype : event.type ≠ .limitChanged) :
    (ApplyTreasuryEventService.buildEntry event program).deltaMinor = event.treasuryDelta := by
  cases h : event.type with
  | limitChanged => exact absurd h htype
  | reservationBooked => simp [ApplyTreasuryEventService.buildEntry, CapacityEvent.treasuryDelta, h]
  | reservationReleased =>
    simp [ApplyTreasuryEventService.buildEntry, CapacityEvent.treasuryDelta, h]

/-- What the entry of a reservation event holds of texts. -/
theorem buildEntry_texts (htype : event.type ≠ .limitChanged) :
    (ApplyTreasuryEventService.buildEntry event program).texts =
      [.text (event.payload.reservationReference.getD event.messageId),
        .text (event.correlationId.getD event.messageId)] := by
  cases h : event.type with
  | limitChanged => exact absurd h htype
  | reservationBooked => simp [PendingLedgerEntry.texts, ApplyTreasuryEventService.buildEntry, h]
  | reservationReleased => simp [PendingLedgerEntry.texts, ApplyTreasuryEventService.buildEntry, h]

/-- An event's own reference is the one that is looked for. -/
theorem CapacityEvent.Storable.origin (h : event.Storable) (htype : event.type ≠ .limitChanged) :
    storableText (event.payload.reservationReference.getD event.messageId) = true := by
  have hasked : ApplyTreasuryEventService.echoReference event =
      event.payload.reservationReference := by
    unfold ApplyTreasuryEventService.echoReference
    cases ht : event.type <;> simp_all
  cases href : event.payload.reservationReference with
  | none => exact h.messageId
  | some reference => exact h.reference reference (hasked.trans href)

/-- A reservation event moves TREASURY and nothing else. -/
theorem eventAdvance_component (htype : event.type ≠ .limitChanged) {c : PositionComponent} :
    (eventAdvance rt event program).program.component c =
      program.toProgramPosition.component c + if c = .treasury then event.treasuryDelta else 0 := by
  rw [eventAdvance, advancePosition_component, componentSum_buildEntry htype]

/-- **A reservation event that can be held can be persisted where TREASURY
stays in its bounds.** -/
theorem Standing.persistable_iff (hs : Standing program.id db)
    (hp : db.program? program.id = some program) (htype : event.type ≠ .limitChanged)
    (hstorable : event.Storable) :
    Persistable db program (eventAdvance rt event program) false ↔
      storableText (event.correlationId.getD event.messageId) = true ∧
        0 ≤ program.treasuryReservedMinor + event.treasuryDelta ∧
        program.treasuryReservedMinor + event.treasuryDelta ≤ bigintMax := by
  have hbounds := hs.inBounds program hp
  have hcomponent := fun c => @eventAdvance_component program rt event htype c
  rw [eventAdvance, (hs.explained.position program hp).persistable_iff,
    List.forall_mem_singleton, buildEntry_texts htype, List.forall_mem_cons,
    List.forall_mem_singleton]
  constructor
  · rintro ⟨⟨⟨-, hcorrelation⟩, -⟩, hafter, -⟩
    have htreasury := hafter .treasury
    rw [← eventAdvance, hcomponent .treasury, if_pos rfl] at htreasury
    exact ⟨hcorrelation, htreasury⟩
  · rintro ⟨hcorrelation, htreasury⟩
    refine ⟨⟨⟨hstorable.origin htype, hcorrelation⟩, ?_⟩, fun c => ?_, fun hgrows => ?_⟩
    · rw [buildEntry_deltaMinor htype]
      have hfits := inBigint_sub (hbounds .treasury) htreasury
      rwa [show program.treasuryReservedMinor + event.treasuryDelta -
        program.toProgramPosition.component .treasury = event.treasuryDelta from
          add_sub_cancel_left _ _] at hfits
    · rw [← eventAdvance, hcomponent c]
      by_cases hc : c = .treasury
      · subst hc; exact htreasury
      · rw [if_neg hc, add_zero]; exact hbounds c
    · have hlocal := hcomponent .local
      simp only [reduceCtorEq, if_false, add_zero] at hlocal
      have hlocal' : (eventAdvance rt event program).program.localReservedMinor =
        program.localReservedMinor := hlocal
      rw [← eventAdvance, hlocal'] at hgrows
      exact absurd hgrows (lt_irrefl _)

/-! ## One event -/

variable [Sha256]

/-- What an applied reservation event leaves of its program. -/
theorem EventApplied.leaves (h : EventApplied rt event coordinates db program db')
    (htype : event.type ≠ .limitChanged) : ∃ after, db'.program? program.id = some after ∧
      after.currency = program.currency ∧ after.treasuryVersion = program.treasuryVersion ∧
      after.treasuryReservedMinor = program.treasuryReservedMinor + event.treasuryDelta ∧
      after.localReservedMinor = program.localReservedMinor := by
  have hrow := h.program?_after program.id
  rw [if_pos rfl] at hrow
  have hcomponent := fun c => @eventAdvance_component program rt event htype c
  refine ⟨_, hrow, ?_, ?_, ?_, ?_⟩
  · rw [withAppliedEffectiveAt_position]; rfl
  · unfold Stmt.withAppliedEffectiveAt; split <;> rfl
  · rw [withAppliedEffectiveAt_position]; exact hcomponent .treasury
  · rw [withAppliedEffectiveAt_position]; exact (hcomponent .local).trans (add_zero _)

/-- **After an event, what can be applied is what could be and is apart from
it.** -/
theorem EventApplied.applicable_iff (h : EventApplied rt event coordinates db program db')
    {currency : String} : Applicable program.id currency db' other ↔
      Applicable program.id currency db other ∧ Apart event other := by
  have hprogram := Db.id_of_program? h.found
  have hid : db'.message? other.messageId = none ↔
      db.message? other.messageId = none ∧ event.messageId ≠ other.messageId := by
    rw [Db.message?_append h.messages_after]
    by_cases he : event.messageId = other.messageId <;>
      simp [ApplyTreasuryEventService.messageRow, he]
  have hversion : db'.messagesAt program.id .event other.version = [] ↔
      db.messagesAt program.id .event other.version = [] ∧ event.version ≠ other.version := by
    rw [Db.messagesAt_append h.messages_after]
    simp [ApplyTreasuryEventService.messageRow, hprogram]
  have hreservations := h.reservationsOf_after program.id
  constructor
  · intro ha
    obtain ⟨hid₁, hid₂⟩ := hid.mp ha.id
    obtain ⟨hversion₁, hversion₂⟩ := hversion.mp ha.version
    exact ⟨⟨ha.storable, ha.correlationId, ha.currency, hid₁, hversion₁, ha.versionRange,
      hreservations ▸ ha.noEcho⟩, hid₂, hversion₂⟩
  · rintro ⟨ha, happart⟩
    exact ⟨ha.storable, ha.correlationId, ha.currency, hid.mpr ⟨ha.id, happart.1⟩,
      hversion.mpr ⟨ha.version, happart.2⟩, ha.versionRange, hreservations.symm ▸ ha.noEcho⟩

variable {inbound : InboundMessage} {order : List InboundMessage} {policy : RetryPolicy}
variable {state : ConsumerState}

/-- **A reservation event is applied** where it can be and TREASURY stays in
its bounds. -/
theorem handledAs_applied_iff (hs : Standing p db) (hp : db.program? p = some program)
    (hm : inbound.message = .event event) (hprogram : Uuid.ofText event.programId = p)
    (htype : event.type ≠ .limitChanged) :
    handledAs inbound db = some .applied ↔ Applicable p program.currency db event ∧
      0 ≤ program.treasuryReservedMinor + event.treasuryDelta ∧
        program.treasuryReservedMinor + event.treasuryDelta ≤ bigintMax := by
  obtain rfl := Db.id_of_program? hp
  rw [handledAs_eq_some, dispatch, hm]
  constructor
  · rintro ⟨db', h⟩
    rcases handleEvent_cases h with ⟨found, -, ha⟩ | ⟨_, _, ho, -⟩ | ⟨-, ⟨_, ho⟩ | ⟨ho, -⟩⟩
    · obtain rfl : found = program := Option.some.inj (ha.found.symm.trans (hprogram ▸ hp))
      obtain ⟨hcorrelation, hbounds⟩ :=
        (hs.persistable_iff hp htype ha.storable).mp ha.persistable
      exact ⟨⟨ha.storable, hcorrelation, ha.currency, ha.id, ha.version, ha.versionRange,
        ha.noEcho⟩, hbounds⟩
    all_goals cases ho
  · rintro ⟨ha, hbounds⟩
    have hnew : NewEvent event db program :=
      ⟨hprogram ▸ hp, ha.currency, ha.version, ha.versionRange, ha.id, ha.storable.messageId⟩
    exact hnew.applied ha.storable ha.noEcho
      ((hs.persistable_iff hp htype ha.storable).mpr ⟨ha.correlationId, hbounds⟩)

/-- What an applied reservation event leaves. -/
theorem handledAs_applied (hp : state.db.program? p = some program)
    (hm : inbound.message = .event event) (hprogram : Uuid.ofText event.programId = p)
    (htype : event.type ≠ .limitChanged) (h : handledAs inbound state.db = some .applied) :
    ∃ after, (processMessage policy state inbound).db.program? p = some after ∧
      after.currency = program.currency ∧
      after.treasuryReservedMinor = program.treasuryReservedMinor + event.treasuryDelta ∧
      ∀ other, Applicable p program.currency (processMessage policy state inbound).db other ↔
        Applicable p program.currency state.db other ∧ Apart event other := by
  obtain rfl := Db.id_of_program? hp
  obtain ⟨db', hrun⟩ := handledAs_eq_some.mp h
  rw [processMessage_db_of_ok hrun]
  rw [dispatch, hm] at hrun
  rcases handleEvent_cases hrun with ⟨found, -, ha⟩ | ⟨_, _, ho, -⟩ | ⟨-, ⟨_, ho⟩ | ⟨ho, -⟩⟩
  · obtain rfl : found = program := Option.some.inj (ha.found.symm.trans (hprogram ▸ hp))
    obtain ⟨after, hafter, hcurrency, -, htreasury, -⟩ := ha.leaves htype
    exact ⟨after, hafter, hcurrency, htreasury, fun other => ha.applicable_iff⟩
  all_goals cases ho

/-! ## Every order -/

/-- Every message of an order is applied. -/
def AllApplied (policy : RetryPolicy) (order : List InboundMessage) (state : ConsumerState) :
    Prop :=
  ∀ o ∈ handled policy order state, o = some .applied

theorem allApplied_cons : AllApplied policy (inbound :: order) state ↔
    handledAs inbound state.db = some .applied ∧
      AllApplied policy order (processMessage policy state inbound) := by
  simp [AllApplied]

/-- A program stands after every message. -/
theorem Standing.processMessage (h : Standing p state.db) :
    Standing p (processMessage policy state inbound).db :=
  consume_induct (fun _ _ hc hs => hs.standing hc) policy [inbound] h

/-- **An order is applied throughout** where each of its events can be, they
are apart, and TREASURY stays in its bounds on the way. -/
theorem allApplied_iff (hs : Standing p state.db) (hp : state.db.program? p = some program)
    (horder : order.map (·.message) = events.map .event)
    (hevents : ∀ event ∈ events, Uuid.ofText event.programId = p ∧ event.type ≠ .limitChanged) :
    AllApplied policy order state ↔
      (∀ event ∈ events, Applicable p program.currency state.db event) ∧ events.Pairwise Apart ∧
        Stays 0 bigintMax CapacityEvent.treasuryDelta program.treasuryReservedMinor events := by
  induction order generalizing state program events with
  | nil =>
    obtain rfl : events = [] := by simpa using horder.symm
    simp [AllApplied, Stays]
  | cons inbound order ih =>
    obtain _ | ⟨event, events⟩ := events
    · simp at horder
    simp only [List.map_cons, List.cons.injEq] at horder
    obtain ⟨hm, horder⟩ := horder
    obtain ⟨⟨hprogram, htype⟩, hevents⟩ := List.forall_mem_cons.mp hevents
    rw [allApplied_cons, List.forall_mem_cons, List.pairwise_cons, Stays]
    have hhead := handledAs_applied_iff hs hp hm hprogram htype
    -- the tail is applied to the state the head leaves
    have htail : handledAs inbound state.db = some .applied →
        (AllApplied policy order (processMessage policy state inbound) ↔
          (∀ other ∈ events, Applicable p program.currency state.db other ∧ Apart event other) ∧
          events.Pairwise Apart ∧ Stays 0 bigintMax CapacityEvent.treasuryDelta
            (program.treasuryReservedMinor + event.treasuryDelta) events) := by
      intro happlied
      obtain ⟨after, hafter, hcurrency, htreasury, happlicable⟩ :=
        @handledAs_applied p program event _ inbound policy state hp hm hprogram htype happlied
      rw [ih hs.processMessage hafter horder hevents, hcurrency, htreasury]
      simp only [happlicable]
    constructor
    · rintro ⟨happlied, hrest⟩
      obtain ⟨ha, hbounds⟩ := hhead.mp happlied
      obtain ⟨hothers, hpairs, hstays⟩ := (htail happlied).mp hrest
      exact ⟨⟨ha, fun other ho => (hothers other ho).1⟩,
        ⟨fun other ho => (hothers other ho).2, hpairs⟩, hbounds, hstays⟩
    · rintro ⟨⟨ha, hothers⟩, ⟨hapart, hpairs⟩, hbounds, hstays⟩
      have happlied := hhead.mpr ⟨ha, hbounds⟩
      exact ⟨happlied, (htail happlied).mpr
        ⟨fun other ho => ⟨hothers other ho, hapart other ho⟩, hpairs, hstays⟩⟩

/-- Where an order that is applied throughout leaves TREASURY. -/
theorem AllApplied.treasury (h : AllApplied policy order state)
    (hp : state.db.program? p = some program)
    (horder : order.map (·.message) = events.map .event)
    (hevents : ∀ event ∈ events, Uuid.ofText event.programId = p ∧ event.type ≠ .limitChanged) :
    ((consume policy order state).db.program? p).map (·.treasuryReservedMinor) =
      some (program.treasuryReservedMinor + (events.map (·.treasuryDelta)).sum) := by
  induction order generalizing state program events with
  | nil =>
    obtain rfl : events = [] := by simpa using horder.symm
    simp [hp]
  | cons inbound order ih =>
    obtain _ | ⟨event, events⟩ := events
    · simp at horder
    simp only [List.map_cons, List.cons.injEq] at horder
    obtain ⟨hm, horder⟩ := horder
    obtain ⟨⟨hprogram, htype⟩, hevents⟩ := List.forall_mem_cons.mp hevents
    obtain ⟨happlied, hrest⟩ := allApplied_cons.mp h
    obtain ⟨after, hafter, -, htreasury, -⟩ :=
      @handledAs_applied p program event _ inbound policy state hp hm hprogram htype happlied
    rw [consume_cons, ih hrest hafter horder hevents, htreasury, List.map_cons, List.sum_cons,
      add_assoc]

omit [Sha256] in
/-- A permutation of an image is the image of a permutation. -/
theorem exists_perm_map {α β : Type} {f : α → β} {xs : List β} {ys : List α}
    (h : xs.Perm (ys.map f)) : ∃ zs : List α, zs.Perm ys ∧ xs = zs.map f := by
  have hcomp : Relation.Comp (· = List.map f ·) List.Perm xs ys := by
    rw [List.eq_map_comp_perm]
    exact h
  obtain ⟨zs, he, hperm⟩ := hcomp
  exact ⟨zs, hperm, he⟩

/-- **Reservation events are applied in every order, to one total, if and
only if TREASURY stays in its bounds with all that they take off first, and
with all that they add first.** The events were all applied in some order:
their ids and versions are apart and new, they are in the program's
currency, the database can hold them, and none is an echo. -/
theorem every_order_applies_iff {start : Db} (hfresh : Fresh p start) (ops : List Operation)
    (hstate : state.db = Operation.run ops start) (hp : state.db.program? p = some program)
    (hevents : ∀ event ∈ events, Uuid.ofText event.programId = p ∧ event.type ≠ .limitChanged)
    (hsome : ∃ order, Delivers events order ∧ AllApplied policy order state) :
    (∃ total, ∀ order, Delivers events order → AllApplied policy order state ∧
      ((consume policy order state).db.program? p).map (·.treasuryReservedMinor) = some total) ↔
    0 ≤ program.treasuryReservedMinor + descent CapacityEvent.treasuryDelta events ∧
      program.treasuryReservedMinor + ascent CapacityEvent.treasuryDelta events ≤ bigintMax := by
  have hs : Standing p state.db := hstate ▸ hfresh.standing.run ops
  have hbounds : 0 ≤ program.treasuryReservedMinor ∧ program.treasuryReservedMinor ≤ bigintMax :=
    hs.inBounds program hp .treasury
  have hdelivered : ∀ {delivered : List CapacityEvent}, delivered.Perm events →
      ∀ event ∈ delivered, Uuid.ofText event.programId = p ∧ event.type ≠ .limitChanged :=
    fun hperm event he => hevents event (hperm.mem_iff.mp he)
  -- what the one order says of the events holds in every order
  obtain ⟨first, hfirst, happlied⟩ := hsome
  obtain ⟨delivered, hperm, he⟩ := exists_perm_map hfirst
  obtain ⟨hnew, hapart, -⟩ := (allApplied_iff hs hp he (hdelivered hperm)).mp happlied
  have hall : ∀ {steps : List CapacityEvent}, steps.Perm events →
      (∀ event ∈ steps, Applicable p program.currency state.db event) ∧ steps.Pairwise Apart :=
    fun hsteps => ⟨fun event hevent => hnew event ((hsteps.trans hperm.symm).mem_iff.mp hevent),
      (List.Perm.pairwise_iff Apart.symm (hsteps.trans hperm.symm)).mpr hapart⟩
  rw [← forall_perm_stays_iff hbounds]
  constructor
  · rintro ⟨total, h⟩ steps hsteps
    -- the order of `steps`, each event as it was delivered first
    obtain ⟨order, horder, hmap⟩ : ∃ order : List InboundMessage, order.Perm first ∧
        order.map (·.message) = steps.map .event := by
      have hmessages : (steps.map TreasuryMessage.event).Perm (first.map (·.message)) := by
        rw [he]; exact (hsteps.trans hperm.symm).map _
      obtain ⟨order, horder, hmap⟩ := exists_perm_map hmessages
      exact ⟨order, horder, hmap.symm⟩
    have happlied := (h order ((horder.map _).trans hfirst)).1
    exact ((allApplied_iff hs hp hmap (hdelivered hsteps)).mp happlied).2.2
  · intro h
    refine ⟨program.treasuryReservedMinor + (events.map (·.treasuryDelta)).sum,
      fun order horder => ?_⟩
    obtain ⟨steps, hsteps, hmap⟩ := exists_perm_map horder
    have happlied : AllApplied policy order state :=
      (allApplied_iff hs hp hmap (hdelivered hsteps)).mpr
        ⟨(hall hsteps).1, (hall hsteps).2, h steps hsteps⟩
    refine ⟨happlied, ?_⟩
    rw [happlied.treasury hp hmap (hdelivered hsteps), (hsteps.map _).sum_eq]

end InvoiceReservation

namespace InvoiceReservation

open Transactions Walks

attribute [local instance] trafficSha256

/-- A booking and its release. -/
def bookingAndRelease : List CapacityEvent :=
  [capacityEvent "evt-00001" 1 .reservationBooked 100,
    capacityEvent "evt-00002" 2 .reservationReleased 100]

theorem every_order_applies_iff_bookingAndRelease : ∃ program,
    freshConsumer.db.program? (Uuid.ofText northwindUsdProgramId) = some program ∧
    ((∃ total, ∀ order, Delivers bookingAndRelease order →
      AllApplied defaultPolicy order freshConsumer ∧
      ((consume defaultPolicy order freshConsumer).db.program?
        (Uuid.ofText northwindUsdProgramId)).map (·.treasuryReservedMinor) = some total) ↔
    0 ≤ program.treasuryReservedMinor + descent CapacityEvent.treasuryDelta bookingAndRelease ∧
      program.treasuryReservedMinor + ascent CapacityEvent.treasuryDelta bookingAndRelease ≤
        bigintMax) := by
  have hfresh : Fresh (Uuid.ofText northwindUsdProgramId) migrated :=
    ⟨rfl, fun program h => by cases h⟩
  have hfound : (freshConsumer.db.program? (Uuid.ofText northwindUsdProgramId)).isSome = true := by
    rw [freshConsumer_eq]
    decide +kernel
  obtain ⟨program, hp⟩ := Option.isSome_iff_exists.mp hfound
  refine ⟨program, hp, every_order_applies_iff hfresh [.seed 0 programs] freshConsumer_db hp
    (by decide +kernel)
    ⟨[deliverAt 1 (.event (capacityEvent "evt-00001" 1 .reservationBooked 100)),
      deliverAt 2 (.event (capacityEvent "evt-00002" 2 .reservationReleased 100))],
      List.Perm.refl _, ?_⟩⟩
  rw [AllApplied, freshConsumer_eq]
  decide +kernel

/-- **A release that arrives before its booking ends as a dead letter.** -/
theorem release_first_quarantined :
    AllApplied defaultPolicy
      [deliverAt 1 (.event (capacityEvent "evt-00001" 1 .reservationBooked 100)),
      deliverAt 2 (.event (capacityEvent "evt-00002" 2 .reservationReleased 100))] freshConsumer ∧
    ¬ AllApplied defaultPolicy
      [deliverAt 1 (.event (capacityEvent "evt-00002" 2 .reservationReleased 100)),
        deliverAt 2 (.event (capacityEvent "evt-00001" 1 .reservationBooked 100))] freshConsumer ∧
    (consume defaultPolicy
      [deliverAt 1 (.event (capacityEvent "evt-00002" 2 .reservationReleased 100)),
        deliverAt 2 (.event (capacityEvent "evt-00001" 1 .reservationBooked 100))]
      freshConsumer).deadLetters.map (·.1) = [.handlerFailure] := by
  rw [AllApplied, AllApplied, freshConsumer_eq]
  decide +kernel

end InvoiceReservation
