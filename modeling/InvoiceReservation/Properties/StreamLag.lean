import InvoiceReservation.Common.RunningMax
import InvoiceReservation.Helpers.NewMessages
import InvoiceReservation.Helpers.Organisations
import InvoiceReservation.Helpers.Positions
import InvoiceReservation.Helpers.Settled
import InvoiceReservation.Model.StreamLag
import InvoiceReservation.Properties.WrittenNumbers
/-!
# The lag that is reported

A program's lag is between two maxima: of the effective times of the
messages that were settled for it, which three differently guarded writes
keep in its row, and of those that the probe has seen for it, which the
registry keeps under the text of its id. The two sides never touch each
other's state, so each is followed alone. The registry's is the true one
only where every message spells the id as the database does.
-/

namespace InvoiceReservation

open Transactions

/-! ## What was settled, and what was seen -/

/-- The effective time of a message. -/
def TreasuryMessage.effectiveAt : TreasuryMessage → Timestamp
  | .event message => message.effectiveAt
  | .snapshot message => message.effectiveAt

/-- The program a message is for, by its value, and the message's time. -/
def TreasuryMessage.stamp (message : TreasuryMessage) : Uuid × Timestamp :=
  (Uuid.ofText message.programId, message.effectiveAt)

/-- The message that the parser of a topic accepts. -/
def StreamTopic.parse (dateParse : List ℕ → Option Timestamp) :
    StreamTopic → RawValue → Option TreasuryMessage
  | .capacityEvents, raw => (parseCapacityEvent dateParse raw).toOption.map .event
  | .snapshots, raw => (parseReconciliationSnapshot dateParse raw).toOption.map .snapshot

/-- The operation of a step. -/
def LagStep.operation? : LagStep → Option Operation
  | .operation op => some op
  | .observed _ _ => none

/-- What the probe is handed in a step. -/
def LagStep.observed? : LagStep → Option (StreamTopic × RawValue)
  | .operation _ => none
  | .observed topic raw => some (topic, raw)

/-- The effective times of the messages that were applied for a program, or
suppressed as echoes. -/
def settledTimes [Sha256] (p : Uuid) (steps : List LagStep) (db : Db) : List Timestamp :=
  RunningMax.seenOf p
    ((settled (steps.filterMap LagStep.operation?) db).map TreasuryMessage.stamp)

/-- The effective times of the well-formed messages of a program that the
probe has seen. -/
def observedTimes (dateParse : List ℕ → Option Timestamp) (p : Uuid) (steps : List LagStep) :
    List Timestamp :=
  RunningMax.seenOf p (((steps.filterMap LagStep.observed?).filterMap fun seen =>
    seen.1.parse dateParse seen.2).map TreasuryMessage.stamp)

/-- The time up to which a program's messages were applied. -/
def Db.appliedEffectiveAt (db : Db) (p : Uuid) : Option Timestamp :=
  (db.program? p).bind (·.treasuryAppliedEffectiveAt)

variable {db db' : Db} {p : Uuid} {program : ProgramEntity} {kept : Option Timestamp}

/-! ## The applied time -/

/-- The two guarded writes raise the applied time. -/
theorem withAppliedEffectiveAt_raise {effectiveAt : Timestamp} :
    (Stmt.withAppliedEffectiveAt program effectiveAt).treasuryAppliedEffectiveAt =
      RunningMax.raise program.treasuryAppliedEffectiveAt effectiveAt := by
  unfold Stmt.withAppliedEffectiveAt RunningMax.raise
  split <;> rfl

/-- And so does the write of a snapshot, by `GREATEST`. -/
theorem withTreasuryVersion_raise {version : Int} {effectiveAt : Timestamp}
    {investigationRequired : Bool} :
    (Stmt.withTreasuryVersion program version effectiveAt
      investigationRequired).treasuryAppliedEffectiveAt =
        RunningMax.raise program.treasuryAppliedEffectiveAt effectiveAt :=
  RunningMax.raise_eq_max.symm

/-- A row that is written of one program. -/
theorem appliedEffectiveAt_of_row {after : ProgramEntity}
    (hafter : db'.program? p = if program.id = p then some after else db.program? p) :
    db'.appliedEffectiveAt p = if program.id = p then after.treasuryAppliedEffectiveAt
      else db.appliedEffectiveAt p := by
  unfold Db.appliedEffectiveAt
  rw [hafter]
  split <;> rfl

/-- A row that is written of one program and raises its applied time. -/
theorem appliedEffectiveAt_of_raise {after : ProgramEntity} {effectiveAt : Timestamp} {q : Uuid}
    (hp : db.program? q = some program)
    (hafter : db'.program? p = if program.id = p then some after else db.program? p)
    (hraise : after.treasuryAppliedEffectiveAt =
      RunningMax.raise program.treasuryAppliedEffectiveAt effectiveAt) :
    db'.appliedEffectiveAt p = (RunningMax.seenOf p [(q, effectiveAt)]).foldl
      RunningMax.raise (db.appliedEffectiveAt p) := by
  have hid : program.id = q := Db.id_of_program? hp
  rw [appliedEffectiveAt_of_row hafter, hid]
  by_cases hq : q = p
  · subst hq
    simp [hraise, Db.appliedEffectiveAt, hp]
  · simp [hq]

variable [Sha256] {rt : Runtime} {coordinates : StreamCoordinates}

/-- **A change that records no message leaves the applied times alone.** -/
theorem Change.appliedEffectiveAt (hc : Change db db') (hmessages : db'.messages = db.messages) :
    db'.appliedEffectiveAt p = db.appliedEffectiveAt p := by
  have hkept : ∀ {program after : ProgramEntity},
      db.program? program.id = some program →
      (db'.program? p = if program.id = p then some after else db.program? p) →
      after.treasuryAppliedEffectiveAt = program.treasuryAppliedEffectiveAt →
      db'.appliedEffectiveAt p = db.appliedEffectiveAt p := by
    intro program after hp hafter hsame
    rw [appliedEffectiveAt_of_row hafter]
    split
    · rename_i hq
      subst hq
      rw [hsame, Db.appliedEffectiveAt, hp]
      rfl
    · rfl
  cases hc with
  | reserved hp ha => exact hkept hp (ha.program?_after p) rfl
  | released hp hrate hd ha => exact hkept hp (ha.program?_after p) rfl
  | cancelled hp hd ha => exact hkept hp (ha.program?_after p) rfl
  | applied ha => rw [ha.messages_after] at hmessages; simp at hmessages
  | echoed ha => rw [ha.messages_after] at hmessages; simp at hmessages
  | corrected ha => rw [ha.messages_after] at hmessages; simp at hmessages
  | @seeded seed now program hp hnone hpersist =>
    by_cases hq : program.id = p
    · subst hq
      rw [Db.appliedEffectiveAt, Db.appliedEffectiveAt, hnone, hp]
      simp [advanceWrites, Stmt.withPosition, Stmt.newProgram]
    · unfold Db.appliedEffectiveAt
      simp [advanceWrites, Stmt.withPosition, hq]
  | swept cutoff => rfl
  | @flagged program b v hp =>
    exact @hkept program { program with investigationRequired := b, positionVerified := v } hp
      (by simp) rfl

theorem runSeed_appliedEffectiveAt {now : Timestamp} {seeds : List ProgramSeed} {u : Unit}
    (h : engine.run (runSeed now seeds) db = .ok (u, db')) :
    db'.appliedEffectiveAt p = db.appliedEffectiveAt p :=
  runSeed_induct (motive := fun c => db'.appliedEffectiveAt p = c.appliedEffectiveAt p) h rfl
    fun hp hnone hpersist hrest => hrest.trans
      ((Change.seeded hp hnone hpersist).appliedEffectiveAt (by simp [advanceWrites, Db.apply]))

/-- What an operation does to the applied time of a program: it is raised by
what the operation settles for the program. -/
def Operation.Raises (op : Operation) (p : Uuid) (db db' : Db) : Prop :=
  db'.appliedEffectiveAt p = (RunningMax.seenOf p
    ((op.settles db).toList.map TreasuryMessage.stamp)).foldl RunningMax.raise
      (db.appliedEffectiveAt p)

theorem event_raises {event : CapacityEvent} {handled : HandleOutcome}
    (h : engine.run (handleCapacityEvent rt event coordinates) db = .ok (handled, db')) :
    Operation.Raises (.event rt event coordinates) p db db' := by
  simp only [Operation.Raises, Operation.settles, eventOutcome_eq]
  rcases handleEvent_ok.mp h with ⟨hi, -, rfl⟩ | ⟨_, hi, -, rfl⟩ | ⟨hi, outcome, happly, -⟩
  · simp [hi]
  · simp [hi]
  · simp only [hi, if_true, happly, Except.toOption, Option.map_some, Option.some.injEq]
    rcases applyEvent_cases happly with
      ⟨hidle, rfl⟩ | ⟨program, rfl, ha⟩ | ⟨program, reference, rfl, ha⟩
    · cases outcome <;> first | exact hidle.elim | rfl
    · exact appliedEffectiveAt_of_raise ha.found (ha.program?_after p) withAppliedEffectiveAt_raise
    · exact appliedEffectiveAt_of_raise ha.found (ha.program?_after p) withAppliedEffectiveAt_raise

theorem snapshot_raises {snapshot : ReconciliationSnapshot} {handled : HandleOutcome}
    (h : engine.run (handleReconciliationSnapshot rt snapshot coordinates) db =
      .ok (handled, db')) : Operation.Raises (.snapshot rt snapshot coordinates) p db db' := by
  simp only [Operation.Raises, Operation.settles, snapshotOutcome_eq]
  rcases handleSnapshot_ok.mp h with ⟨hi, -, rfl⟩ | ⟨_, hi, -, rfl⟩ | ⟨hi, outcome, happly, -⟩
  · simp [hi]
  · simp [hi]
  · simp only [hi, if_true, happly, Except.toOption, Option.map_some, Option.some.injEq]
    rcases applySnapshot_cases happly with ⟨hidle, rfl⟩ | ⟨rfl, _, program, _, _, _, ha⟩
    · cases outcome <;> first | exact hidle.elim | rfl
    · exact appliedEffectiveAt_of_raise ha.found (ha.program?_after p) withTreasuryVersion_raise

/-- An operation that settles no message leaves the applied times alone. -/
theorem Operation.raises_of_quiet {op : Operation} {reply : Reply} (hnone : op.settles db = none)
    (h : engine.run op.tx db = .ok (reply, db')) : op.Raises p db db' := by
  have hmessages : db'.messages = db.messages := by
    obtain ⟨rows, hrows, hrecords⟩ := op.records (c := db)
    rw [hnone] at hrecords
    cases hrecords
    rw [Engine.effect_of_run_ok h] at hrows
    simpa using hrows
  simp only [Operation.Raises, hnone, Option.toList_none, List.map_nil, RunningMax.seenOf_nil,
    List.foldl_nil]
  rcases op.change_or_seed h with hone | ⟨now, seeds, -, hseed⟩
  · cases hone with
    | refl => rfl
    | single hc => exact hc.appliedEffectiveAt hmessages
  · exact runSeed_appliedEffectiveAt hseed

/-- **An operation raises a program's applied time by what it settles.** -/
theorem Operation.raises (op : Operation) : op.Raises p db (engine.effect op.tx db) := by
  cases hr : engine.run op.tx db with
  | error e =>
    rw [Engine.effect_of_run_error hr]
    simp [Operation.Raises, settles_of_error hr]
  | ok r =>
    obtain ⟨reply, db'⟩ := r
    rw [Engine.effect_of_run_ok hr]
    cases op with
    | event rt event coordinates =>
      obtain ⟨handled, hran, -⟩ := Engine.run_map_ok.mp hr
      exact event_raises hran
    | snapshot rt snapshot coordinates =>
      obtain ⟨handled, hran, -⟩ := Engine.run_map_ok.mp hr
      exact snapshot_raises hran
    | _ => exact raises_of_quiet rfl hr

/-- **A run raises it by all that it settles.** -/
theorem appliedEffectiveAt_run (ops : List Operation) :
    (Operation.run ops db).appliedEffectiveAt p =
      (RunningMax.seenOf p ((settled ops db).map TreasuryMessage.stamp)).foldl RunningMax.raise
        (db.appliedEffectiveAt p) := by
  induction ops generalizing db with
  | nil => rfl
  | cons op ops ih =>
    have hrest := @ih (engine.effect op.tx db)
    rw [op.raises (p := p)] at hrest
    rw [settled, List.map_append, RunningMax.seenOf_append, List.foldl_append]
    exact hrest

/-! ## What the probe keeps -/

section Registry

omit [Sha256]

variable {dateParse : List ℕ → Option Timestamp} {raw : RawValue} {registry : StreamLagRegistry}
variable {topic : StreamTopic} {message : TreasuryMessage} {id : List ℕ} {t : Timestamp}

/-- What the registry is told of a message: an effective time after 1970, and
the text its program is named by. -/
def observation? (dateParse : List ℕ → Option Timestamp) (raw : RawValue) :
    Option (List ℕ × Timestamp) :=
  (readHead dateParse raw).toOption.filter fun head => 0 < head.2

theorem readHead_eq_ok : readHead dateParse raw = .ok (id, t) ↔
    ∃ members, (raw.text?.bind Json.parse).bind propertiesOf = some members ∧
      string? (members.get "programId") = some id ∧ id.length ≠ 0 ∧
      (string? (members.get "effectiveAt")).bind dateParse = some t := by
  simp only [readHead, bind_eq_ok, orInvalid_eq_ok, Option.bind_eq_some_iff,
    Option.filter_eq_some_iff]
  constructor
  · rintro ⟨text, htext, members, ⟨json, hjson, hmembers⟩, s, ⟨hs, hne⟩, effectiveAt, heffective,
      millis, hmillis, hpair⟩
    cases hpair
    exact ⟨members, ⟨json, ⟨text, htext, hjson⟩, hmembers⟩, hs, by simpa using hne, effectiveAt,
      heffective, hmillis⟩
  · rintro ⟨members, ⟨json, ⟨text, htext, hjson⟩, hmembers⟩, hs, hne, effectiveAt, heffective,
      hmillis⟩
    exact ⟨text, htext, members, ⟨json, hjson, hmembers⟩, id, ⟨hs, by simpa using hne⟩,
      effectiveAt, heffective, t, hmillis, rfl⟩

theorem observation?_eq_some : observation? dateParse raw = some (id, t) ↔
    readHead dateParse raw = .ok (id, t) ∧ 0 < t := by
  unfold observation?
  cases readHead dateParse raw with
  | error warning => simp [Except.toOption]
  | ok head =>
    simp only [Except.toOption, Option.filter_eq_some_iff, Option.some.injEq, decide_eq_true_eq,
      Except.ok.injEq]

/-- **The probe is a table of running maxima**, under the texts of ids. -/
theorem handleEachMessage_eq : handleEachMessage dateParse raw registry =
    (observation? dateParse raw).toList.foldl RunningMax.observe registry := by
  unfold handleEachMessage observation?
  cases hhead : readHead dateParse raw with
  | error warning => rfl
  | ok head =>
    obtain ⟨id, t⟩ := head
    obtain ⟨-, -, -, hne, -⟩ := readHead_eq_ok.mp hhead
    simp only [Except.toOption, StreamLagRegistry.observe, if_neg hne]
    by_cases hpositive : 0 < t
    · rw [if_neg (not_le.mpr hpositive), Option.filter_some_pos (by simpa using hpositive)]
      rfl
    · rw [if_pos (not_lt.mp hpositive), Option.filter_some_neg (by simpa using hpositive)]
      rfl

/-- What some messages leave in the registry. -/
theorem foldl_handleEachMessage (seen : List (StreamTopic × RawValue)) :
    seen.foldl (fun registry x => handleEachMessage dateParse x.2 registry) registry =
      (seen.filterMap fun x => observation? dateParse x.2).foldl RunningMax.observe registry := by
  induction seen generalizing registry with
  | nil => rfl
  | cons x seen ih =>
    rw [List.foldl_cons, ih, handleEachMessage_eq]
    cases hseen : observation? dateParse x.2 <;> simp [hseen]

/-! ## Well-formed messages -/

theorem uuidPattern_ascii {s : List ℕ} (h : uuidPattern s = true) : Utf.IsAscii s := by
  have hhex : ∀ unit : ℕ, (Json.hexValue unit).isSome = true → unit < 0x80 := by
    intro unit hsome
    unfold Json.hexValue at hsome
    split_ifs at hsome with hlow hmiddle hhigh <;> simp_all <;> omega
  simp only [uuidPattern, Bool.and_eq_true, List.all_eq_true] at h
  intro unit hunit
  obtain ⟨i, hi, rfl⟩ := List.mem_iff_getElem.mp hunit
  have hplace := h.2 (s[i], i) (by simp [List.mk_mem_zipIdx_iff_getElem?])
  dsimp only at hplace
  split at hplace
  · simp only [decide_eq_true_eq] at hplace
    omega
  · exact hhex _ hplace

/-- What the parsers accept, the probe reads: the same program and the same
time. -/
theorem readHead_of_members {value : Members} {programId detail : String}
    (hvalue : raw.object? = some value) (hid : parseProgramId value = .ok programId)
    (hdate : parseDate dateParse (value.get "effectiveAt") detail = .ok t) :
    ∃ id, readHead dateParse raw = .ok (id, t) ∧ Utf.IsAscii id ∧ programId = Utf.text id := by
  simp only [parseProgramId, bind_eq_ok, orInvalid_eq_ok, Option.filter_eq_some_iff] at hid
  obtain ⟨id, ⟨hs, hpattern⟩, htext⟩ := hid
  cases htext
  rw [parseDate, orInvalid_eq_ok] at hdate
  obtain ⟨json, hjson, hobject⟩ := Option.bind_eq_some_iff.mp hvalue
  have hproperties : propertiesOf json = some value := by
    cases json <;> simp_all [plainObject?, propertiesOf]
  have hlength : id.length = 36 := by
    simp only [uuidPattern, Bool.and_eq_true, decide_eq_true_eq] at hpattern
    exact hpattern.1
  refine ⟨id, readHead_eq_ok.mpr ⟨value, ?_, hs, by omega, hdate⟩, uuidPattern_ascii hpattern, rfl⟩
  rw [hjson]
  exact hproperties

theorem readHead_of_parse (h : topic.parse dateParse raw = some message) :
    ∃ id, readHead dateParse raw = .ok (id, message.effectiveAt) ∧ Utf.IsAscii id ∧
      message.programId = Utf.text id := by
  cases topic with
  | capacityEvents =>
    simp only [StreamTopic.parse, Option.map_eq_some_iff] at h
    obtain ⟨event, hevent, rfl⟩ := h
    cases hparsed : parseCapacityEvent dateParse raw with
    | error detail => rw [hparsed] at hevent; cases hevent
    | ok read =>
      rw [hparsed] at hevent
      cases hevent
      simp only [parseCapacityEvent, bind_eq_ok, parseObject_eq_ok] at hparsed
      obtain ⟨value, hvalue, -, -, messageId, -, programId, hid, version, -, effectiveAt, hdate,
        type, -, correlationId, -, payload, -, hread⟩ := hparsed
      cases hread
      exact readHead_of_members hvalue hid hdate
  | snapshots =>
    simp only [StreamTopic.parse, Option.map_eq_some_iff] at h
    obtain ⟨snapshot, hsnapshot, rfl⟩ := h
    cases hparsed : parseReconciliationSnapshot dateParse raw with
    | error detail => rw [hparsed] at hsnapshot; cases hsnapshot
    | ok read =>
      rw [hparsed] at hsnapshot
      cases hsnapshot
      simp only [parseReconciliationSnapshot, bind_eq_ok, parseObject_eq_ok] at hparsed
      obtain ⟨value, hvalue, -, -, messageId, -, programId, hid, version, -, effectiveAt, hdate,
        currency, -, creditLimitMinor, -, reservedMinor, -, correlationId, -, acknowledgement, -,
        hread⟩ := hparsed
      cases hread
      exact readHead_of_members hvalue hid hdate

/-! ## Messages that are counted -/

/-- **A message that is counted for a program as it should be**: where it is
well-formed and the program's, it spells the id as the database does; and
where it spells it so, and its time can be read, it is well-formed. -/
structure Counted (dateParse : List ℕ → Option Timestamp) (p : Uuid) (topic : StreamTopic)
    (raw : RawValue) : Prop where
  spelled : ∀ message, topic.parse dateParse raw = some message →
    Uuid.ofText message.programId = p → message.programId = p.text
  wellFormed : ∀ t, readHead dateParse raw = .ok (Utf.units p.text, t) → 0 < t →
    (topic.parse dateParse raw).isSome = true

/-- A message from after 1970, where it is well-formed. -/
def Dated (dateParse : List ℕ → Option Timestamp) (topic : StreamTopic) (raw : RawValue) : Prop :=
  ∀ message, topic.parse dateParse raw = some message → 0 < message.effectiveAt

/-- The registry's key is the program's where the text is its text. -/
theorem eq_units_iff (h : Utf.IsAscii id) : id = Utf.units p.text ↔ Utf.text id = p.text := by
  constructor
  · intro he
    have hunits : Utf.units (Utf.text id) = Utf.units p.text := (Utf.units_text h).trans he
    exact Utf.units_injective hunits
  · intro he
    rw [← he, Utf.units_text h]

theorem observation?_of_parse (hdated : Dated dateParse topic raw)
    (h : topic.parse dateParse raw = some message) :
    ∃ id, observation? dateParse raw = some (id, message.effectiveAt) ∧
      (id = Utf.units p.text ↔ message.programId = p.text) := by
  obtain ⟨id, hhead, hascii, htext⟩ := readHead_of_parse h
  exact ⟨id, observation?_eq_some.mpr ⟨hhead, hdated message h⟩, by rw [htext, eq_units_iff hascii]⟩

/-- What a counted message adds to the program's key is what it adds to the
program. -/
theorem Counted.seenOf_eq (h : Counted dateParse p topic raw) (hdated : Dated dateParse topic raw) :
    RunningMax.seenOf (Utf.units p.text) (observation? dateParse raw).toList =
      RunningMax.seenOf p ((topic.parse dateParse raw).toList.map TreasuryMessage.stamp) := by
  cases hparse : topic.parse dateParse raw with
  | none =>
    cases hseen : observation? dateParse raw with
    | none => simp
    | some head =>
      obtain ⟨id, t⟩ := head
      obtain ⟨hhead, hpositive⟩ := observation?_eq_some.mp hseen
      have hother : id ≠ Utf.units p.text := by
        intro he
        rw [he] at hhead
        have := h.wellFormed t hhead hpositive
        simp [hparse] at this
      simp [hother]
  | some message =>
    obtain ⟨id, hseen, hid⟩ := @observation?_of_parse p _ _ _ _ hdated hparse
    have hprogram : Uuid.ofText message.programId = p ↔ id = Utf.units p.text := by
      rw [hid]
      exact ⟨h.spelled message hparse, fun he => by rw [he, Uuid.ofText_text]⟩
    simp [hseen, TreasuryMessage.stamp, hprogram]

/-- A message is counted where, alone, it gives the program's key the maximum
it gives the program. -/
theorem Counted.of_max (hdated : Dated dateParse topic raw)
    (h : (RunningMax.seenOf (Utf.units p.text) (observation? dateParse raw).toList).max? =
      (RunningMax.seenOf p
        ((topic.parse dateParse raw).toList.map TreasuryMessage.stamp)).max?) :
    Counted dateParse p topic raw := by
  refine ⟨fun message hparse hprogram => ?_, fun t hhead hpositive => ?_⟩
  · obtain ⟨id, hseen, hid⟩ := @observation?_of_parse p _ _ _ _ hdated hparse
    refine hid.mp (not_not.mp fun hother => ?_)
    simp [hparse, hseen, TreasuryMessage.stamp, hprogram, hother] at h
  · rw [observation?_eq_some.mpr ⟨hhead, hpositive⟩] at h
    cases hparse : topic.parse dateParse raw with
    | none => simp [hparse] at h
    | some message => rfl

/-- **What counted messages add to the program's key** is what they add to
the program. -/
theorem seenOf_observations (seen : List (StreamTopic × RawValue))
    (hdated : ∀ x ∈ seen, Dated dateParse x.1 x.2)
    (hcounted : ∀ x ∈ seen, Counted dateParse p x.1 x.2) :
    RunningMax.seenOf (Utf.units p.text) (seen.filterMap fun x => observation? dateParse x.2) =
      RunningMax.seenOf p ((seen.filterMap fun x => x.1.parse dateParse x.2).map
        TreasuryMessage.stamp) := by
  induction seen with
  | nil => simp
  | cons x seen ih =>
    have hhead := (hcounted x List.mem_cons_self).seenOf_eq (hdated x List.mem_cons_self)
    have hrest := ih (fun y hy => hdated y (List.mem_cons_of_mem _ hy))
      fun y hy => hcounted y (List.mem_cons_of_mem _ hy)
    have hcons : ∀ {β : Type} (f : StreamTopic × RawValue → Option β),
        (x :: seen).filterMap f = (f x).toList ++ seen.filterMap f := by
      intro β f
      cases hx : f x <;> simp [hx]
    rw [hcons, hcons, List.map_append, RunningMax.seenOf_append, RunningMax.seenOf_append, hhead,
      hrest]

end Registry

/-! ## Runs -/

variable (dateParse : List ℕ → Option Timestamp)

/-- The database is the operations' alone. -/
theorem run_db (steps : List LagStep) (state : LagState) :
    (LagStep.run dateParse steps state).db =
      Operation.run (steps.filterMap LagStep.operation?) state.db := by
  induction steps generalizing state with
  | nil => rfl
  | cons step steps ih =>
    cases step with
    | operation op => exact ih _
    | observed topic raw => exact ih _

/-- And the registry the probe's. -/
theorem run_registry (steps : List LagStep) (state : LagState) :
    (LagStep.run dateParse steps state).registry = (steps.filterMap LagStep.observed?).foldl
      (fun registry x => handleEachMessage dateParse x.2 registry) state.registry := by
  induction steps generalizing state with
  | nil => rfl
  | cons step steps ih =>
    cases step with
    | operation op => exact ih _
    | observed topic raw => exact ih _

/-- What the registry keeps of a text: the maximum of what was seen under it. -/
theorem newestObservedFor_run (steps : List LagStep) (db : Db) (id : List ℕ) :
    (LagStep.run dateParse steps ⟨db, []⟩).registry.newestObservedFor id =
      (RunningMax.seenOf id ((steps.filterMap LagStep.observed?).filterMap fun x =>
        observation? dateParse x.2)).max? := by
  rw [run_registry, foldl_handleEachMessage]
  exact RunningMax.newest_foldl_observe _

/-- **The lag that is reported is the business lag**, after some steps: the
applied time is the maximum over the settled messages, the registry's the
maximum over the well-formed ones, and the lag of a body is null where one of
them is of nothing, and otherwise the whole seconds by which the second
exceeds the first, as JavaScript's dates. -/
structure LagReported (p : Uuid) (steps : List LagStep) (state : LagState) : Prop where
  applied : ∀ program, (LagStep.run dateParse steps state).db.program? p = some program →
    program.treasuryAppliedEffectiveAt = (settledTimes p steps state.db).max?
  observed : (LagStep.run dateParse steps state).registry.newestObservedFor (Utf.units p.text) =
    (observedTimes dateParse p steps).max?
  unknown : ∀ programId body, Uuid.ofText programId = p →
    (LagStep.run dateParse steps state).availability programId = .ok body →
      (body.lagSeconds = none ↔
        settledTimes p steps state.db = [] ∨ observedTimes dateParse p steps = [])
  seconds : ∀ programId body, Uuid.ofText programId = p →
    (LagStep.run dateParse steps state).availability programId = .ok body →
      ∀ applied observed, (settledTimes p steps state.db).max? = some applied →
        (observedTimes dateParse p steps).max? = some observed →
          body.lagSeconds = some (max 0 ((toDate observed - toDate applied) / 1000000))

omit [Sha256] in
/-- The whole seconds between two times, or none. -/
theorem lagSecondsFor_some (applied observed : Timestamp) :
    lagSecondsFor (some applied) (some observed) =
      some (max 0 ((toDate observed - toDate applied) / 1000000)) := by
  have hseconds : ∀ a b : Int,
      (if b / 1000 - a / 1000 ≤ 0 then 0 else (b / 1000 - a / 1000) / 1000) =
        max 0 ((b / 1000 * 1000 - a / 1000 * 1000) / 1000000) := by
    intro a b
    split <;> omega
  exact congrArg some (hseconds applied observed)

omit [Sha256] in
/-- What a body's lag is computed from. -/
theorem availability_lag {state : LagState} {programId : String}
    (hp : state.db.program? (Uuid.ofText programId) = some program) :
    (state.availability programId).toOption.map (·.lagSeconds) =
      some (lagSecondsFor program.treasuryAppliedEffectiveAt
        (state.registry.newestObservedFor (Utf.units (Uuid.ofText programId).text))) := by
  unfold LagState.availability forProgram
  rw [hp, ← Db.id_of_program? hp]
  rfl

omit [Sha256] in
theorem availability_ok {state : LagState} {programId : String} {body : AvailabilityBody}
    (hid : Uuid.ofText programId = p) (h : state.availability programId = .ok body) :
    ∃ program, state.db.program? p = some program ∧
      body.lagSeconds = lagSecondsFor program.treasuryAppliedEffectiveAt
        (state.registry.newestObservedFor (Utf.units p.text)) := by
  subst hid
  cases hp : state.db.program? (Uuid.ofText programId) with
  | none =>
    unfold LagState.availability forProgram at h
    rw [hp] at h
    cases h
  | some program =>
    have hlag := availability_lag hp
    rw [h] at hlag
    exact ⟨program, rfl, Option.some.inj hlag⟩

/-- **Every run whose messages are counted.** -/
theorem lagReported_of_counted {organisations : List Uuid} {steps : List LagStep}
    (hdated : ∀ x ∈ steps.filterMap LagStep.observed?, Dated dateParse x.1 x.2)
    (hcounted : ∀ x ∈ steps.filterMap LagStep.observed?, Counted dateParse p x.1 x.2) :
    LagReported dateParse p steps ⟨Db.initial organisations, []⟩ := by
  have happlied : ∀ program,
      (LagStep.run dateParse steps ⟨Db.initial organisations, []⟩).db.program? p = some program →
        program.treasuryAppliedEffectiveAt =
          (settledTimes p steps (Db.initial organisations)).max? := by
    intro program hp
    have hrun := @appliedEffectiveAt_run (Db.initial organisations) p _
      (steps.filterMap LagStep.operation?)
    rw [run_db] at hp
    rw [Db.appliedEffectiveAt, hp] at hrun
    exact hrun.trans (RunningMax.foldl_raise _)
  have hobserved := newestObservedFor_run dateParse steps (Db.initial organisations)
    (Utf.units p.text)
  rw [seenOf_observations _ hdated hcounted] at hobserved
  refine ⟨happlied, hobserved, ?_, ?_⟩
  · intro programId body hid hbody
    obtain ⟨program, hp, hlag⟩ := availability_ok hid hbody
    rw [hlag, happlied program hp, hobserved, ← observedTimes, ← List.max?_eq_none_iff,
      ← List.max?_eq_none_iff]
    cases (settledTimes p steps (Db.initial organisations)).max? with
    | none => simp [lagSecondsFor]
    | some applied => cases (observedTimes dateParse p steps).max? <;> simp [lagSecondsFor]
  · intro programId body hid hbody applied observed hsettled hseen
    obtain ⟨program, hp, hlag⟩ := availability_ok hid hbody
    rw [hlag, happlied program hp, hobserved, ← observedTimes, hsettled, hseen]
    exact lagSecondsFor_some applied observed

/-- **The reported lag is the business lag where every message is counted.**
In every run of operations and of messages the probe is handed, the
well-formed ones from after 1970: where each message is counted for the
program as it should be, the lag is reported. And the condition is exact: a
message alone is reported just where it is counted. -/
theorem lag_is_business_lag_iff (organisations : List Uuid) (p : Uuid) :
    (∀ steps : List LagStep,
      (∀ x ∈ steps.filterMap LagStep.observed?, Dated dateParse x.1 x.2) →
      (∀ x ∈ steps.filterMap LagStep.observed?, Counted dateParse p x.1 x.2) →
        LagReported dateParse p steps ⟨Db.initial organisations, []⟩) ∧
    ∀ topic raw, Dated dateParse topic raw →
      (LagReported dateParse p [.observed topic raw] ⟨Db.initial organisations, []⟩ ↔
        Counted dateParse p topic raw) := by
  refine ⟨fun steps hdated hcounted => lagReported_of_counted dateParse hdated hcounted, ?_⟩
  intro topic raw hdated
  have hone : ∀ x ∈ [LagStep.observed topic raw].filterMap LagStep.observed?, x = (topic, raw) :=
    fun x hx => List.mem_singleton.mp hx
  constructor
  · intro hreported
    refine .of_max hdated ?_
    have hmax := hreported.observed
    rw [newestObservedFor_run] at hmax
    have hseen : ([LagStep.observed topic raw].filterMap LagStep.observed?).filterMap
        (fun x => observation? dateParse x.2) = (observation? dateParse raw).toList := by
      cases hraw : observation? dateParse raw <;> simp [LagStep.observed?, hraw]
    have hwell : observedTimes dateParse p [.observed topic raw] = RunningMax.seenOf p
        ((topic.parse dateParse raw).toList.map TreasuryMessage.stamp) := by
      unfold observedTimes
      cases hraw : topic.parse dateParse raw <;> simp [LagStep.observed?, hraw]
    rwa [hseen, hwell] at hmax
  · intro hcounted
    exact lagReported_of_counted dateParse (fun x hx => hone x hx ▸ hdated)
      fun x hx => hone x hx ▸ hcounted

end InvoiceReservation

namespace InvoiceReservation

attribute [local instance] trafficSha256

/-- A booking of 100 on the first day of the year, as treasury sends it. -/
def bookingNaming (programId : String) : RawValue :=
  .string (Utf.units ("\x7b\"messageId\":\"evt-00002\",\"programId\":\"" ++ programId ++
    "\",\"version\":2,\"effectiveAt\":\"2025-01-01T00:00:00Z\",\"type\":\"RESERVATION_BOOKED\"," ++
    "\"payload\":\x7b\"amountMinor\":\"100\",\"currency\":\"USD\"\x7d\x7d"))

/-- The seed, a booking that is applied, and the booking of the next day that
the probe is handed. -/
def laggingRun (programId : String) : List LagStep :=
  [.operation (.seed 0 programs),
    .operation (.event (callAt 1)
      { capacityEvent "evt-00001" 1 .reservationBooked 100 with effectiveAt := 1735603200000000 }
      (coordinatesAt "treasury.capacity.events" 0)),
    .observed .capacityEvents (bookingNaming programId)]

/-- What is read of a booking. -/
theorem read_bookingNaming {programId : String} {t : Timestamp}
    (hread : (StreamTopic.capacityEvents.parse firstOfYear (bookingNaming programId)).map
      (fun m => (m.programId, m.effectiveAt)) = some (programId, t)) :
    ∃ message,
      StreamTopic.capacityEvents.parse firstOfYear (bookingNaming programId) = some message ∧
        message.programId = programId ∧ message.effectiveAt = t := by
  obtain ⟨message, hparse, hstamp⟩ := Option.map_eq_some_iff.mp hread
  obtain ⟨hid, ht⟩ := Prod.mk.injEq .. ▸ hstamp
  exact ⟨message, hparse, hid, ht⟩

/-- The step of the run that hands the probe a message. -/
theorem observed_laggingRun (programId : String) :
    (laggingRun programId).filterMap LagStep.observed? =
      [(.capacityEvents, bookingNaming programId)] :=
  rfl

theorem dated_bookingNaming {programId : String} {message : TreasuryMessage}
    (hparse : StreamTopic.capacityEvents.parse firstOfYear (bookingNaming programId) = some message)
    (hpositive : 0 < message.effectiveAt) :
    Dated firstOfYear .capacityEvents (bookingNaming programId) := by
  intro other hother
  rw [← Option.some.inj (hparse.symm.trans hother)]
  exact hpositive

theorem observedTimes_laggingRun {programId : String} {message : TreasuryMessage}
    (hparse : StreamTopic.capacityEvents.parse firstOfYear (bookingNaming programId) = some message)
    (p : Uuid) :
    observedTimes firstOfYear p (laggingRun programId) = RunningMax.seenOf p [message.stamp] := by
  simp only [observedTimes, observed_laggingRun, List.filterMap_cons, hparse, List.filterMap_nil,
    List.map_cons, List.map_nil]

/-- The program that the run leaves. -/
theorem program?_laggingRun (programId : String) :
    ∃ program, (LagStep.run firstOfYear (laggingRun programId) ⟨migrated, []⟩).db.program?
        (Uuid.ofText northwindUsdProgramId) = some program ∧
      program.treasuryAppliedEffectiveAt = some 1735603200000000 := by
  have hrun : ((Operation.run [.seed 0 programs, .event (callAt 1)
      { capacityEvent "evt-00001" 1 .reservationBooked 100 with effectiveAt := 1735603200000000 }
      (coordinatesAt "treasury.capacity.events" 0)] migrated).program?
        (Uuid.ofText northwindUsdProgramId)).map (·.treasuryAppliedEffectiveAt) =
          some (some 1735603200000000) := by
    rw [run_seed]
    decide +kernel
  rw [run_db]
  exact Option.map_eq_some_iff.mp hrun

/-- **A message that names its program in capitals is not seen for it**: a day
behind, the program's lag is null. -/
theorem capitals_hide_lag :
    (∀ x ∈ (laggingRun "B1B2C3D4-0001-4000-8000-000000000011").filterMap LagStep.observed?,
      Dated firstOfYear x.1 x.2) ∧
    settledTimes (Uuid.ofText northwindUsdProgramId)
      (laggingRun "B1B2C3D4-0001-4000-8000-000000000011") migrated = [1735603200000000] ∧
    observedTimes firstOfYear (Uuid.ofText northwindUsdProgramId)
      (laggingRun "B1B2C3D4-0001-4000-8000-000000000011") = [1735689600000000] ∧
    (((LagStep.run firstOfYear (laggingRun "B1B2C3D4-0001-4000-8000-000000000011")
      ⟨migrated, []⟩).availability northwindUsdProgramId).toOption.map (·.lagSeconds)) =
        some none ∧
    ¬ LagReported firstOfYear (Uuid.ofText northwindUsdProgramId)
      (laggingRun "B1B2C3D4-0001-4000-8000-000000000011") ⟨migrated, []⟩ := by
  have hread : (StreamTopic.capacityEvents.parse firstOfYear
      (bookingNaming "B1B2C3D4-0001-4000-8000-000000000011")).map
        (fun m => (m.programId, m.effectiveAt)) =
          some ("B1B2C3D4-0001-4000-8000-000000000011", 1735689600000000) := by
    decide +kernel
  obtain ⟨message, hparse, hid, ht⟩ := read_bookingNaming hread
  have hdated := dated_bookingNaming hparse (by rw [ht]; decide)
  have hobserved : observedTimes firstOfYear (Uuid.ofText northwindUsdProgramId)
      (laggingRun "B1B2C3D4-0001-4000-8000-000000000011") = [1735689600000000] := by
    rw [observedTimes_laggingRun hparse, TreasuryMessage.stamp, hid, ht]
    decide +kernel
  have hkept : (LagStep.run firstOfYear (laggingRun "B1B2C3D4-0001-4000-8000-000000000011")
      ⟨migrated, []⟩).registry.newestObservedFor
        (Utf.units (Uuid.ofText northwindUsdProgramId).text) = none := by
    obtain ⟨id, hseen, hspelled⟩ := observation?_of_parse hdated hparse
    -- the registry keeps the booking under the text in capitals
    have hother : id ≠ Utf.units (Uuid.ofText northwindUsdProgramId).text := by
      rw [Ne, hspelled, hid]
      decide +kernel
    rw [newestObservedFor_run, observed_laggingRun, List.filterMap_cons, hseen]
    simp [hother]
  obtain ⟨program, hp, happlied⟩ := program?_laggingRun "B1B2C3D4-0001-4000-8000-000000000011"
  refine ⟨fun x hx => ?_, by decide +kernel, hobserved, ?_, fun hreported => ?_⟩
  · rw [observed_laggingRun] at hx
    rw [List.mem_singleton.mp hx]
    exact hdated
  · rw [availability_lag hp, happlied, hkept]
    rfl
  · have hmax := hreported.observed
    rw [hkept, hobserved] at hmax
    cases hmax

theorem lag_is_business_lag_iff_day :
    LagReported firstOfYear (Uuid.ofText northwindUsdProgramId) (laggingRun northwindUsdProgramId)
      ⟨Db.initial organisations, []⟩ ∧
    (((LagStep.run firstOfYear (laggingRun northwindUsdProgramId)
      ⟨Db.initial organisations, []⟩).availability northwindUsdProgramId).toOption.map
        (·.lagSeconds)) = some (some 86400) := by
  have hread : (StreamTopic.capacityEvents.parse firstOfYear
      (bookingNaming northwindUsdProgramId)).map (fun m => (m.programId, m.effectiveAt)) =
        some (northwindUsdProgramId, 1735689600000000) := by
    decide +kernel
  obtain ⟨message, hparse, hid, ht⟩ := read_bookingNaming hread
  have hreported : LagReported firstOfYear (Uuid.ofText northwindUsdProgramId)
      (laggingRun northwindUsdProgramId) ⟨migrated, []⟩ := by
    refine (lag_is_business_lag_iff firstOfYear organisations _).1 _ (fun x hx => ?_) fun x hx => ?_
    · rw [observed_laggingRun] at hx
      rw [List.mem_singleton.mp hx]
      exact dated_bookingNaming hparse (by rw [ht]; decide)
    · rw [observed_laggingRun] at hx
      rw [List.mem_singleton.mp hx]
      refine ⟨fun other hother _ => ?_, fun t _ _ => by rw [hparse]; rfl⟩
      rw [← Option.some.inj (hparse.symm.trans hother), hid]
      decide +kernel
  have hobserved : (observedTimes firstOfYear (Uuid.ofText northwindUsdProgramId)
      (laggingRun northwindUsdProgramId)).max? = some 1735689600000000 := by
    rw [observedTimes_laggingRun hparse, TreasuryMessage.stamp, hid, ht]
    decide +kernel
  obtain ⟨program, hp, happlied⟩ := program?_laggingRun northwindUsdProgramId
  refine ⟨hreported, (availability_lag hp).trans ?_⟩
  rw [happlied, hreported.observed, hobserved]
  rfl

end InvoiceReservation
