import InvoiceReservation.Helpers.NewMessages
import InvoiceReservation.Helpers.Settled
import InvoiceReservation.Model.Seed
/-!
# Which events are dropped

A handler skips an event it finds already applied: by its id, or by the
content of another event of its program and version. An event is dropped
exactly where its id was taken by another message, or where another event
of its program and version hashes to what it hashes to.
-/

namespace InvoiceReservation

open Transactions

variable [Sha256] {db db' c : Db} {rt : Runtime} {coordinates : StreamCoordinates}
variable {event : CapacityEvent} {ops : List Operation}

/-! ## One event for each version -/

/-- No program has two processed events of one version, and every version and
every id fits its column. -/
structure EventsApart (c : Db) : Prop where
  apart : ∀ p version, (c.messagesAt p .event version).length ≤ 1
  range : ∀ row ∈ c.messages, inBigint row.version = true
  text : ∀ row ∈ c.messages, storableText row.messageId = true

omit [Sha256] in
/-- A new event keeps events apart. -/
theorem EventsApart.append (h : EventsApart db) (row : ProcessedMessageEntity)
    (hmessages : db'.messages = db.messages ++ [row]) (hrange : inBigint row.version = true)
    (htext : storableText row.messageId = true)
    (hnew : row.kind = .event → db.messagesAt row.programId .event row.version = []) :
    EventsApart db' where
  apart p version := by
    rw [Db.messagesAt_append hmessages]
    split
    · rename_i hrow
      obtain ⟨rfl, hkind, rfl⟩ := hrow
      simp [hnew hkind]
    · simpa using h.apart p version
  range := by
    rw [hmessages]
    exact List.forall_mem_append.mpr ⟨h.range, by simpa using hrange⟩
  text := by
    rw [hmessages]
    exact List.forall_mem_append.mpr ⟨h.text, by simpa using htext⟩

/-- **One change.** -/
theorem Change.eventsApart (hc : Change db db') (h : EventsApart db) : EventsApart db' := by
  have hquiet : db'.messages = db.messages → EventsApart db' := fun he =>
    ⟨fun p version => by simpa only [Db.messagesAt, Db.messagesOf, he] using h.apart p version,
      he ▸ h.range, he ▸ h.text⟩
  cases hc with
  | reserved hp ha => exact hquiet ha.messages_after
  | released hp hrate hd ha => exact hquiet ha.messages_after
  | cancelled hp hd ha => exact hquiet ha.messages_after
  | @applied rt event coordinates program _ ha =>
    refine h.append (ApplyTreasuryEventService.messageRow rt event) ha.messages_after
      ha.versionRange ha.storableId fun _ => ?_
    have hversion := ha.version
    rwa [Db.id_of_program? ha.found] at hversion
  | @echoed rt event coordinates program reference _ ha =>
    refine h.append (ApplyTreasuryEventService.messageRow rt event) ha.messages_after
      ha.versionRange ha.storableId fun _ => ?_
    have hversion := ha.version
    rwa [Db.id_of_program? ha.found] at hversion
  | @corrected rt snapshot _ _ _ _ _ _ _ ha =>
    exact h.append (ApplySnapshotService.messageRow rt snapshot) ha.messages_after
      ha.versionRange ha.storable.messageId fun hkind => by cases hkind
  | seeded hp hnone hpersist => exact hquiet (by simp [advanceWrites, Db.apply])
  | swept cutoff => exact hquiet rfl
  | flagged b v hp => exact hquiet rfl

theorem eventsApart_run (ops : List Operation) (hstart : db.messages = []) :
    EventsApart (Operation.run ops db) :=
  run_induct (fun _ _ hc hs => hs.eventsApart hc) ops
    ⟨fun p version => by simp [Db.messagesAt, Db.messagesOf, hstart], by simp [hstart],
      by simp [hstart]⟩

/-! ## What is skipped -/

/-- Why an event may be skipped: it was settled before, or is suppressed as
an echo now. -/
def Justified (ops : List Operation) (db : Db) (rt : Runtime) (event : CapacityEvent)
    (coordinates : StreamCoordinates) : Prop :=
  .event event ∈ settled ops db ∨
    eventOutcome rt event coordinates (Operation.run ops db) = some .echoSuppressed

/-- An event's id was taken by another message: one of its id was settled,
and it was not this event. -/
def IdTaken (ops : List Operation) (db : Db) (event : CapacityEvent) : Prop :=
  (∃ m ∈ settled ops db, m.messageId = event.messageId) ∧ .event event ∉ settled ops db

/-- An event's content was taken by another event: its id is new and can be
asked for, its program is there in its currency, and an event of its program
and version was settled that hashes to what it hashes to. -/
def ContentTaken (ops : List Operation) (db : Db) (event : CapacityEvent) : Prop :=
  storableText event.messageId = true ∧ (∀ m ∈ settled ops db, m.messageId ≠ event.messageId) ∧
    (∃ program, (Operation.run ops db).program? (Uuid.ofText event.programId) = some program ∧
      program.currency = event.payload.currency) ∧
    ∃ other, .event other ∈ settled ops db ∧
      Uuid.ofText other.programId = Uuid.ofText event.programId ∧ other.version = event.version ∧
      capacityEventContentHash other = capacityEventContentHash event

section Lists

omit [Sha256]

variable {α β : Type} {R : α → β → Prop} {xs : List α} {ys : List β}

theorem exists_right (h : List.Forall₂ R xs ys) {x : α} (hx : x ∈ xs) : ∃ y ∈ ys, R x y := by
  induction h with
  | nil => cases hx
  | cons hr _ ih =>
    rcases List.mem_cons.mp hx with rfl | hx
    · exact ⟨_, List.mem_cons_self, hr⟩
    · obtain ⟨y, hy, hr⟩ := ih hx
      exact ⟨y, List.mem_cons_of_mem _ hy, hr⟩

theorem exists_left (h : List.Forall₂ R xs ys) {y : β} (hy : y ∈ ys) : ∃ x ∈ xs, R x y :=
  exists_right h.flip hy

end Lists

/-- The messages of a run are those it settled. -/
theorem messages_settled (hstart : db.messages = []) :
    List.Forall₂ Records (settled ops db) (Operation.run ops db).messages := by
  obtain ⟨rows, hrows, hall⟩ := run_records (c := db) ops
  rw [hrows, hstart, List.nil_append]
  exact hall

/-- Every settled message is recorded. -/
theorem exists_row (hstart : db.messages = []) {m : TreasuryMessage} (hm : m ∈ settled ops db) :
    ∃ row ∈ (Operation.run ops db).messages, Records m row :=
  exists_right (messages_settled hstart) hm

/-- Every recorded message was settled. -/
theorem exists_settled (hstart : db.messages = []) {row : ProcessedMessageEntity}
    (hrow : row ∈ (Operation.run ops db).messages) : ∃ m ∈ settled ops db, Records m row :=
  exists_left (messages_settled hstart) hrow

/-- A message has been processed where one of its id was settled. -/
theorem isSome_message? (hstart : db.messages = []) {messageId : String} :
    ((Operation.run ops db).message? messageId).isSome = true ↔
      ∃ m ∈ settled ops db, m.messageId = messageId := by
  rw [Db.isSome_message?]
  constructor
  · rintro ⟨row, hrow, hid⟩
    obtain ⟨m, hm, hr⟩ := exists_settled hstart hrow
    exact ⟨m, hm, by rw [← hr.messageId, hid]⟩
  · rintro ⟨m, hm, rfl⟩
    obtain ⟨row, hrow, hr⟩ := exists_row hstart hm
    exact ⟨row, hrow, hr.messageId⟩

/-- The event of a version that has been processed. -/
theorem mem_messagesAt (hstart : db.messages = []) {p : Uuid} {version : Int}
    {row : ProcessedMessageEntity}
    (h : row ∈ (Operation.run ops db).messagesAt p .event version) :
    ∃ other, .event other ∈ settled ops db ∧ Uuid.ofText other.programId = p ∧
      other.version = version ∧ row.contentHash = capacityEventContentHash other := by
  simp only [Db.messagesAt, Db.messagesOf, List.mem_filter, decide_eq_true_eq] at h
  obtain ⟨⟨hrow, hp⟩, hkind, hversion⟩ := h
  obtain ⟨m, hm, hr⟩ := exists_settled hstart hrow
  cases hr with
  | event rt other => exact ⟨other, hm, hp, hversion, rfl⟩
  | snapshot rt snapshot => cases hkind

/-- **Where an event's content was taken, and only there, it is skipped for
another.** -/
theorem contentTaken_iff (hstart : db.messages = []) :
    ContentTaken ops db event ↔
      (∀ m ∈ settled ops db, m.messageId ≠ event.messageId) ∧
        inspectEvent event (Operation.run ops db) = .ok .alreadyApplied := by
  unfold ContentTaken
  rw [inspectEvent, byText_ok, and_left_comm]
  refine and_congr_right fun hid => and_congr_right fun _ => ?_
  have hnone : ((Operation.run ops db).message? event.messageId).isSome = false := by
    rw [← Bool.not_eq_true, isSome_message? hstart]
    rintro ⟨m, hm, he⟩
    exact hid m hm he
  rw [if_neg (by simp [hnone])]
  cases hp : (Operation.run ops db).program? (Uuid.ofText event.programId) with
  | none => simp
  | some program =>
    by_cases hcurrency : program.currency = event.payload.currency
    swap
    · simp [hcurrency]
    simp only [hcurrency, Option.some.injEq, ne_eq, not_true_eq_false, if_false, exists_eq_left',
      true_and]
    unfold atVersion
    constructor
    · -- one event at most has the version, so the row that is found is the other's
      rintro ⟨other, hother, hprogram, hversion, hhash⟩
      obtain ⟨row, hrow, hr⟩ := exists_row hstart hother
      cases hr with
      | event rt other =>
        have hapart := eventsApart_run ops hstart
        have hrange : inBigint event.version = true := hversion ▸ hapart.range _ hrow
        have hmem : ApplyTreasuryEventService.messageRow rt other ∈
            (Operation.run ops db).messagesAt
            (Uuid.ofText event.programId) .event event.version := by
          simp only [Db.messagesAt, Db.messagesOf, List.mem_filter, decide_eq_true_eq]
          exact ⟨⟨hrow, hprogram⟩, rfl, hversion⟩
        have hlength := hapart.apart (Uuid.ofText event.programId) event.version
        obtain ⟨existing, hrows⟩ := List.length_eq_one_iff.mp
          (le_antisymm hlength (List.length_pos_of_mem hmem))
        rw [hrows] at hmem
        obtain rfl := List.mem_singleton.mp hmem
        have hhash' : (ApplyTreasuryEventService.messageRow rt other).contentHash =
          capacityEventContentHash event := hhash
        rw [if_pos hrange, hrows]
        simp [hhash']
    · intro h
      split at h
      · cases hrows : ((Operation.run ops db).messagesAt (Uuid.ofText event.programId) .event
          event.version).head? with
        | none => rw [hrows] at h; cases h
        | some existing =>
          simp only [hrows, Except.ok.injEq] at h
          split at h
          · rename_i hhash
            obtain ⟨other, hother, hprogram, hversion, he⟩ :=
              mem_messagesAt hstart (List.mem_of_head? hrows)
            exact ⟨other, hother, hprogram, hversion, by rw [← he, hhash]⟩
          · cases h
      · cases h

end InvoiceReservation

namespace InvoiceReservation

open Transactions

attribute [local instance] trafficSha256

/-- The seed, and a booking of treasury's. -/
def booked : List Operation :=
  [.seed 0 programs, .event (callAt 1) (capacityEvent "evt-00001" 1 .reservationBooked 100)
    (coordinatesAt "treasury.capacity.events" 0)]

end InvoiceReservation
