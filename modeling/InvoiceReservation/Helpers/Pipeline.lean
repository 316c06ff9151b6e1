import InvoiceReservation.Model.Pipeline
import InvoiceReservation.Properties.Acknowledgements
/-!
# What an attempt at a message leaves

A later state of the database has seen every message an earlier one had,
so that what an inspection read in several states still holds. An attempt
leaves the database alone, or does its message's work once: where its id
was not recorded, and recording it.
-/

namespace InvoiceReservation

open Transactions

/-! ## Later states -/

/-- A state that has recorded what another has, and whose programs are in no
older treasury version. -/
structure Db.Later (c d : Db) : Prop where
  messages : c.messages <+: d.messages
  versions : ∀ p program, c.program? p = some program →
    ∃ after, d.program? p = some after ∧ program.treasuryVersion ≤ after.treasuryVersion

section Later

variable {c d e : Db} {p : Uuid}

theorem Db.Later.refl (c : Db) : c.Later c :=
  ⟨List.prefix_refl _, fun _ program hp => ⟨program, hp, le_refl _⟩⟩

theorem Db.Later.trans (h : c.Later d) (h' : d.Later e) : c.Later e := by
  refine ⟨h.messages.trans h'.messages, fun p program hp => ?_⟩
  obtain ⟨between, hbetween, hle⟩ := h.versions p program hp
  obtain ⟨after, hafter, hle'⟩ := h'.versions p between hbetween
  exact ⟨after, hafter, hle.trans hle'⟩

theorem Db.Later.message? (h : c.Later d) {messageId : String}
    (hid : (c.message? messageId).isSome = true) : (d.message? messageId).isSome = true := by
  obtain ⟨row, hrow, hmessageId⟩ := Db.isSome_message?.mp hid
  exact Db.isSome_message?.mpr ⟨row, h.messages.subset hrow, hmessageId⟩

theorem Db.Later.messagesAt (h : c.Later d) {kind : MessageKind} {version : Int}
    (hrows : c.messagesAt p kind version ≠ []) : d.messagesAt p kind version ≠ [] := by
  obtain ⟨row, hrow⟩ := List.exists_mem_of_ne_nil _ hrows
  have hrow' := ((h.messages.filter _).filter _).subset hrow
  exact List.ne_nil_of_mem hrow'

end Later

variable [Sha256] {c d db db' : Db}

theorem Change.messages (h : Change db db') : db.messages <+: db'.messages := by
  have hsame : ∀ {c c' : Db}, c'.messages = c.messages → c.messages <+: c'.messages :=
    fun he => he ▸ List.prefix_refl _
  have hone : ∀ {row : ProcessedMessageEntity} {c c' : Db}, c'.messages = c.messages ++ [row] →
      c.messages <+: c'.messages := fun he => he ▸ List.prefix_append ..
  cases h with
  | reserved _ ha => exact hsame ha.messages_after
  | released _ _ _ ha => exact hsame ha.messages_after
  | cancelled _ _ ha => exact hsame ha.messages_after
  | applied ha => exact hone ha.messages_after
  | echoed ha => exact hone ha.messages_after
  | corrected ha => exact hone ha.messages_after
  | seeded hp hnone hpersist => exact hsame (by simp [advanceWrites, Db.apply])
  | swept cutoff => exact hsame rfl
  | flagged b v hp => exact hsame rfl

theorem Change.later (h : Change db db') : db.Later db' :=
  ⟨h.messages, fun _ _ hp => h.versionsChange.treasuryVersion hp⟩

theorem Changes.later (h : Changes db db') : db.Later db' := by
  induction h with
  | refl => exact .refl _
  | tail _ hc ih => exact ih.trans hc.later

/-! ## Seen messages -/

/-- A message that has nothing new to tell: its id is recorded, or one of its
program, kind and version is, or it is an old snapshot. -/
def TreasuryMessage.Seen (db : Db) : TreasuryMessage → Prop
  | event message => EventSeen message db
  | snapshot message => SnapshotSeen message db

omit [Sha256] in
theorem TreasuryMessage.seen_of_recorded {m : TreasuryMessage}
    (h : (db.message? m.messageId).isSome = true) : m.Seen db := by
  cases m with
  | event message => exact Or.inl h
  | snapshot message => exact Or.inl h

omit [Sha256] in
theorem TreasuryMessage.Seen.later {m : TreasuryMessage} (h : m.Seen c) (hl : c.Later d) :
    m.Seen d := by
  cases m with
  | event message =>
    rcases h with hid | ⟨program, hp, hversion⟩
    · exact Or.inl (hl.message? hid)
    · obtain ⟨after, hafter, -⟩ := hl.versions _ _ hp
      rw [Db.id_of_program? hp] at hversion
      refine Or.inr ⟨after, hafter, ?_⟩
      rw [Db.id_of_program? hafter]
      exact hl.messagesAt hversion
  | snapshot message =>
    rcases h with hid | ⟨program, hp, hold⟩
    · exact Or.inl (hl.message? hid)
    · obtain ⟨after, hafter, hle⟩ := hl.versions _ _ hp
      refine Or.inr ⟨after, hafter, ?_⟩
      rcases hold with hstale | hversion
      · exact Or.inl (hstale.trans_le hle)
      · rw [Db.id_of_program? hp] at hversion
        rw [Db.id_of_program? hafter]
        exact Or.inr (hl.messagesAt hversion)

/-! ## Inspections -/

section Inspections

variable {seen : Db → Prop} {found : InspectOutcome}

omit [Sha256] in
/-- An unlocked statement, and what follows its answer. -/
theorem Answered.query {α β : Type} {s : Stmt β} {k : β → Transaction α} {a : α}
    (h : Answered engine seen (query s >>= k) a) :
    ∃ c b ws, seen c ∧ Stmt.exec s c = .ok (b, ws) ∧ Answered engine seen (k b) a := by
  obtain ⟨c, b, ws, hc, hx, h⟩ := Answered.exec h
  exact ⟨c, b, ws, hc, Stmt.exec_of_send hx, h⟩

theorem answered_inspectEvent {event : CapacityEvent}
    (h : Answered engine seen (ApplyTreasuryEventService.inspect event) .alreadyApplied)
    (hseen : ∀ c, seen c → c.Later d) : EventSeen event d := by
  obtain ⟨c, b, ws, hc, hx, h⟩ := Answered.query h
  cases hx
  split at h
  · rename_i hid
    exact Or.inl ((hseen c hc).message? hid)
  obtain ⟨c', b, ws, hc', hx, h⟩ := Answered.query h
  cases hx
  cases hp : c'.program? (Uuid.ofText event.programId) with
  | none =>
    simp only [hp] at h
    cases h.pure_eq
  | some program =>
    simp only [hp] at h
    split at h
    · cases h.pure_eq
    obtain ⟨c'', b, ws, hc'', hx, h⟩ := Answered.query h
    simp only [Stmt.exec, guarded_ok, Prod.mk.injEq] at hx
    obtain ⟨-, rfl, rfl⟩ := hx
    split at h
    · rename_i existing hexisting
      obtain ⟨after, hafter, -⟩ := (hseen c' hc').versions _ _ hp
      refine Or.inr ⟨after, hafter, ?_⟩
      rw [Db.id_of_program? hafter]
      refine (hseen c'' hc'').messagesAt fun hnil => ?_
      rw [hnil] at hexisting
      cases hexisting
    · cases h.pure_eq

theorem answered_inspectSnapshot {snapshot : ReconciliationSnapshot}
    (h : Answered engine seen (ApplySnapshotService.inspect snapshot) .alreadyApplied)
    (hseen : ∀ c, seen c → c.Later d) : SnapshotSeen snapshot d := by
  obtain ⟨c, b, ws, hc, hx, h⟩ := Answered.query h
  cases hx
  split at h
  · rename_i hid
    exact Or.inl ((hseen c hc).message? hid)
  obtain ⟨c', b, ws, hc', hx, h⟩ := Answered.query h
  cases hx
  cases hp : c'.program? (Uuid.ofText snapshot.programId) with
  | none =>
    simp only [hp] at h
    cases h.pure_eq
  | some program =>
    simp only [hp] at h
    obtain ⟨after, hafter, hle⟩ := (hseen c' hc').versions _ _ hp
    split at h
    · cases h.pure_eq
    split at h
    · rename_i hstale
      exact Or.inr ⟨after, hafter, Or.inl (hstale.trans_le hle)⟩
    split at h
    swap
    · cases h.pure_eq
    obtain ⟨c'', b, ws, hc'', hx, h⟩ := Answered.query h
    simp only [Stmt.exec, guarded_ok, Prod.mk.injEq] at hx
    obtain ⟨-, rfl, rfl⟩ := hx
    split at h
    · rename_i existing hexisting
      refine Or.inr ⟨after, hafter, Or.inr ?_⟩
      rw [Db.id_of_program? hafter]
      refine (hseen c'' hc'').messagesAt fun hnil => ?_
      rw [hnil] at hexisting
      cases hexisting
    · cases h.pure_eq

/-- **What an inspection passes over has been seen**, in whichever states its
statements were answered. -/
theorem TreasuryMessage.seen_of_answered {m : TreasuryMessage}
    (h : Answered engine seen m.inspect .alreadyApplied) (hseen : ∀ c, seen c → c.Later d) :
    m.Seen d := by
  cases m with
  | event message => exact answered_inspectEvent h hseen
  | snapshot message => exact answered_inspectSnapshot h hseen

end Inspections

/-! ## Applications -/

section Applications

variable {rt : Runtime} {coordinates : StreamCoordinates} {outcome : ApplyOutcome}

/-- An event that is applied before, under the lock, was seen. -/
theorem applyEvent_alreadyApplied {event : CapacityEvent}
    (h : engine.run (ApplyTreasuryEventService.apply rt event coordinates) db =
      .ok (.alreadyApplied, db')) : EventSeen event db := by
  unfold ApplyTreasuryEventService.apply at h
  rw [run_withProgramLockOr] at h
  cases hp : db.program? (Uuid.ofText event.programId) with
  | none =>
    rw [hp] at h
    cases h
  | some program =>
    by_contra hseen
    have hid : db.message? event.messageId = none := by
      rw [← Option.not_isSome_iff_eq_none]
      exact fun hsome => hseen (Or.inl hsome)
    have hversion : db.messagesAt program.id .event event.version = [] := by
      by_contra hne
      exact hseen (Or.inr ⟨program, hp, hne⟩)
    simp only [hp] at h
    by_cases hcurrency : program.currency = event.payload.currency
    · by_cases hrange : inBigint event.version = true
      · have hrun : engine.run (ApplyTreasuryEventService.apply rt event coordinates) db =
            .ok (.alreadyApplied, db') := by
          unfold ApplyTreasuryEventService.apply
          rw [run_withProgramLockOr, hp]
          exact h
        have hnil : (db.messagesAt (Uuid.ofText event.programId) .event event.version).head? =
            none := by
          rw [← Db.id_of_program? hp, hversion]
          rfl
        simp only [ApplyTreasuryEventService.applyLocked, hcurrency, ne_eq, not_true_eq_false,
          if_false, run_selectMessagesAt, hrange, if_true, hnil] at h
        have htext : storableText event.messageId = true := storable_of_run rfl h
        rcases applyEvent_new ⟨hp, hcurrency, hversion, hrange, hid, htext⟩ hrun with he | he <;>
          cases he
      · unfold ApplyTreasuryEventService.applyLocked at h
        rw [if_neg (not_not.mpr hcurrency)] at h
        obtain ⟨rows, ws, hx, -⟩ := run_query_ok h
        simp only [Stmt.exec, guarded_ok, List.forall_mem_cons, Constraint.bigint] at hx
        exact hrange hx.1.1
    · unfold ApplyTreasuryEventService.applyLocked at h
      rw [if_pos hcurrency] at h
      cases h

/-- A snapshot that is applied before, under the lock, was seen. -/
theorem applySnapshot_alreadyApplied {snapshot : ReconciliationSnapshot}
    (h : engine.run (ApplySnapshotService.apply rt snapshot coordinates) db =
      .ok (.alreadyApplied, db')) : SnapshotSeen snapshot db := by
  by_contra hseen
  have hnone : ∀ program, db.program? (Uuid.ofText snapshot.programId) = some program →
      program.currency = snapshot.currency → NewSnapshot snapshot db program := by
    intro program hp hcurrency
    refine ⟨hp, hcurrency, ?_, ?_, ?_⟩
    · rw [← Option.not_isSome_iff_eq_none]
      exact fun hsome => hseen (Or.inl hsome)
    · by_contra hne
      exact hseen (Or.inr ⟨program, hp, Or.inr hne⟩)
    · by_contra hlt
      exact hseen (Or.inr ⟨program, hp, Or.inl (not_le.mp hlt)⟩)
  have hrun := h
  unfold ApplySnapshotService.apply at h
  cases hmarker : snapshot.acknowledgement with
  | none =>
    rw [hmarker] at h
    cases h
  | some marker =>
    simp only [hmarker, run_withProgramLockOr] at h
    cases hp : db.program? (Uuid.ofText snapshot.programId) with
    | none =>
      rw [hp] at h
      cases h
    | some program =>
      by_cases hcurrency : program.currency = snapshot.currency
      · rcases applySnapshot_new (hnone program hp hcurrency) hrun with he | ⟨reason, -, he⟩ <;>
          cases he
      · simp only [hp] at h
        unfold ApplySnapshotService.applyLocked at h
        rw [if_pos hcurrency] at h
        cases h

/-- **What a committed apply leaves**: nothing, and then it says so, or the
work of a message whose id was not recorded and now is. -/
inductive Applies (m : TreasuryMessage) (db : Db) : ApplyOutcome → Db → Prop
  | seen : m.Seen db → Applies m db .alreadyApplied db
  | quarantined (reason : QuarantineReason) : Applies m db (.quarantined reason) db
  | worked {outcome : ApplyOutcome} {db' : Db} : ¬ outcome.Idle →
      db.message? m.messageId = none → (db'.message? m.messageId).isSome = true →
      Change db db' → Applies m db outcome db'

theorem Applies.of_idle {m : TreasuryMessage} (hidle : outcome.Idle)
    (hseen : outcome = .alreadyApplied → m.Seen db) : Applies m db outcome db := by
  cases outcome with
  | applied => exact hidle.elim
  | echoSuppressed => exact hidle.elim
  | alreadyApplied => exact .seen (hseen rfl)
  | quarantined reason => exact .quarantined reason

omit [Sha256] in
/-- A recorded message is found by its id. -/
theorem isSome_message?_append {row : ProcessedMessageEntity} {messageId : String}
    (h : db'.messages = db.messages ++ [row]) (hid : row.messageId = messageId) :
    (db'.message? messageId).isSome = true :=
  Db.isSome_message?.mpr ⟨row, h ▸ List.mem_append_right _ (List.mem_singleton.mpr rfl), hid⟩

theorem TreasuryMessage.applies {m : TreasuryMessage}
    (h : engine.run (m.apply rt coordinates) db = .ok (outcome, db')) :
    Applies m db outcome db' := by
  cases m with
  | event message =>
    rcases applyEvent_cases h with
      ⟨hidle, rfl⟩ | ⟨program, rfl, ha⟩ | ⟨program, reference, rfl, ha⟩
    · exact .of_idle hidle fun he => by subst he; exact applyEvent_alreadyApplied h
    · exact .worked id ha.id (isSome_message?_append ha.messages_after rfl) (.applied ha)
    · exact .worked id ha.id (isSome_message?_append ha.messages_after rfl) (.echoed ha)
  | snapshot message =>
    rcases applySnapshot_cases h with ⟨hidle, rfl⟩ | ⟨rfl, _, _, _, _, _, ha⟩
    · exact .of_idle hidle fun he => by subst he; exact applySnapshot_alreadyApplied h
    · exact .worked id ha.id (isSome_message?_append ha.messages_after rfl) (.corrected ha)

end Applications

end InvoiceReservation
