import InvoiceReservation.Helpers.Recovery
import InvoiceReservation.Helpers.Requests
import InvoiceReservation.Model.Seed
/-!
# Held programs

A hold runs beside the locked transactions and waits for the row of its
program as they do. From its commit on every write of the program finds
the mark, under the lock, and is refused or answered from a record of
before. Only a snapshot that is applied takes the mark back.
-/

namespace InvoiceReservation

open Transactions

/-- A program that is held. -/
def Held (p : Uuid) (db : Db) : Prop :=
  ∃ program, db.program? p = some program ∧ program.positionVerified = false

variable {db db' : Db} {p : Uuid} {program : ProgramEntity}

/-- A program that is there is verified or held. -/
theorem held_iff : Held p db ↔ (db.program? p).isSome = true ∧ ¬ Verified p db := by
  constructor
  · rintro ⟨program, hp, hheld⟩
    refine ⟨by rw [hp]; rfl, ?_⟩
    rintro ⟨other, hother, hverified⟩
    rw [hp] at hother
    obtain rfl := Option.some.inj hother
    rw [hheld] at hverified
    cases hverified
  · rintro ⟨hsome, hverified⟩
    obtain ⟨program, hp⟩ := Option.isSome_iff_exists.mp hsome
    refine ⟨program, hp, ?_⟩
    by_contra hmark
    exact hverified ⟨program, hp, by simpa using hmark⟩

variable [Sha256] {rt : Runtime}

/-! ## One transaction on its own -/

/-- **A write of a held program is answered from its record and changes
nothing**, where it commits. -/
theorem replayed_of_held {w : ApiWrite} {outcome : WriteOutcome}
    (hheld : Held (Uuid.ofText w.request.programId) db)
    (h : engine.run w.request.tx db = .ok (outcome, db')) :
    Replayed w.request.identity db outcome ∧ db' = db := by
  obtain ⟨program, hp, hmark⟩ := hheld
  cases w with
  | reserve rt command =>
    obtain ⟨found, hfound, hreplay | ⟨reservedMinor, fx, hr⟩⟩ := reserve_cases h
    · exact hreplay
    · obtain rfl := Option.some.inj (hp.symm.trans hfound)
      obtain ⟨resolution, -, hdecision⟩ := hr.resolved
      have hverified : program.positionVerified = true := (decideReservation_accepted hdecision).1
      rw [hmark] at hverified
      cases hverified
  | release rt command =>
    obtain ⟨found, hfound, hreplay | ⟨row, rate, applied, -, -, hs⟩⟩ := release_cases h
    · exact hreplay
    · obtain rfl := Option.some.inj (hp.symm.trans hfound)
      have hverified := hs.verified
      rw [hmark] at hverified
      cases hverified
  | cancel rt command =>
    obtain ⟨found, hfound, hreplay | ⟨row, applied, -, hs⟩⟩ := cancel_cases h
    · exact hreplay
    · obtain rfl := Option.some.inj (hp.symm.trans hfound)
      have hverified := hs.verified
      rw [hmark] at hverified
      cases hverified

omit [Sha256] in
/-- A write whose key and whose invoice the database can hold. -/
structure WriteRequest.Storable (q : WriteRequest) : Prop where
  requestId : storableText q.identity.requestId = true
  invoiceId : storableText q.invoiceId = true

/-- **A new write of a held program is refused**, but for a `TypeError` of
the rate provider, which a reserve asks first, and for texts that the
database cannot hold. -/
theorem refused_of_held {w : ApiWrite} (hheld : Held (Uuid.ofText w.request.programId) db)
    (hnew : db.request? w.request.identity.organisationId w.request.identity.requestId = none)
    (horganisation : db.organisations.contains w.request.identity.organisationId = true) :
    (∃ code details, engine.run w.request.tx db = .error (.refusal code details)) ∨
      (∃ e, engine.run w.request.tx db = .error (.typeError e)) ∨
      ¬ w.request.Storable ∧ ∃ e, engine.run w.request.tx db = .error (.sql e) := by
  obtain ⟨program, hp, hmark⟩ := hheld
  have hlocked : engine.run w.request.tx db = engine.run
      (withIdempotency w.request.identity w.request.now (w.request.proceed program)) db := by
    rw [WriteRequest.tx, withProgramLock, run_withProgramLockOr, hp]
  by_cases hid : storableText w.request.identity.requestId = true
  swap
  · rw [hlocked, run_withIdempotency_of_unstorable (by simpa using hid)]
    exact Or.inr (Or.inr ⟨fun h => hid h.requestId, _, rfl⟩)
  rw [hlocked, run_withIdempotency hid, hnew]
  simp only [horganisation, if_true]
  cases w with
  | reserve rt command =>
    dsimp only [ApiWrite.request, proceedReserve]
    by_cases hinvoice : storableText command.invoiceText = true
    swap
    · rw [run_query_of_unstorable rfl (by simpa using hinvoice)]
      exact Or.inr (Or.inr ⟨fun h => hinvoice h.invoiceId, _, rfl⟩)
    rw [run_query_of_parameters (by exact Constraint.forall_text hinvoice)]
    simp only [Stmt.exec, Engine.applyAll_nil]
    split
    · exact Or.inl ⟨_, _, rfl⟩
    · rw [run_orTypeError]
      cases hfx : resolveFx rt command program with
      | error e => exact Or.inr (Or.inl ⟨e, rfl⟩)
      | ok resolution =>
        have hdecision :
            decideReservation program.toProgramPosition command.amountMinor resolution =
            .ok (.refused .positionUnverified []) := by
          unfold decideReservation
          rw [if_pos hmark]
        simp only [run_orTypeError, hdecision]
        exact Or.inl ⟨_, _, rfl⟩
  | release rt command =>
    dsimp only [ApiWrite.request, proceedRelease]
    rw [if_pos hmark]
    exact Or.inl ⟨_, _, rfl⟩
  | cancel rt command =>
    dsimp only [ApiWrite.request, proceedCancel]
    rw [if_pos hmark]
    exact Or.inl ⟨_, _, rfl⟩

omit [Sha256] in
/-- A settlement leaves the mark as it was. -/
theorem Settled.verified_before {identity : RequestIdentity} {invoiceId : String}
    {entry : PendingLedgerEntry} {update : InvoiceReservationEntity → InvoiceReservationEntity}
    {row : InvoiceReservationEntity} {outcome : WriteOutcome} {q : Uuid}
    (h : Settled rt identity invoiceId entry update db program row outcome db')
    (hp : db.program? q = some program) (hverified : Verified p db') : Verified p db := by
  exact @verified_of_row _ _ _ _ (Stmt.withPosition program
    (advancePosition program.toProgramPosition [entry] rt.now).program rt.now) (program?_id hp) rfl
    (h.program?_after p) hverified

/-- A snapshot of a program that was applied, as a commit. -/
def Clears (p : Uuid) (commit : WatchedTransaction × WatchedReply) : Prop :=
  ∃ rt snapshot coordinates, commit = (.locked (.snapshot rt snapshot coordinates),
    .locked (.applied .applied)) ∧ Uuid.ofText snapshot.programId = p

/-- **A locked transaction verifies a program only as a snapshot of it that
is applied.** -/
theorem verified_locked {t : LockedTransaction} {reply : LockedReply}
    (h : engine.run t.tx db = .ok (reply, db')) (hverified : Verified p db') :
    Verified p db ∨ Clears p (.locked t, .locked reply) := by
  cases t with
  | reserve rt command =>
    obtain ⟨outcome, h, -⟩ := Engine.run_map_ok.mp h
    refine Or.inl ?_
    obtain ⟨program, hp, ⟨-, rfl⟩ | ⟨reservedMinor, fx, hr⟩⟩ := reserve_cases h
    · exact hverified
    · exact @verified_of_row _ _ _ _ (Stmt.withPosition program
        (reservedAdvance rt command program reservedMinor).program rt.now) (program?_id hp) rfl
        (hr.program?_after p) hverified
  | release rt command =>
    obtain ⟨outcome, h, -⟩ := Engine.run_map_ok.mp h
    refine Or.inl ?_
    obtain ⟨program, hp, ⟨-, rfl⟩ | ⟨row, rate, applied, -, -, hs⟩⟩ := release_cases h
    · exact hverified
    · exact hs.verified_before hp hverified
  | cancel rt command =>
    obtain ⟨outcome, h, -⟩ := Engine.run_map_ok.mp h
    refine Or.inl ?_
    obtain ⟨program, hp, ⟨-, rfl⟩ | ⟨row, applied, -, hs⟩⟩ := cancel_cases h
    · exact hverified
    · exact hs.verified_before hp hverified
  | event rt message coordinates =>
    obtain ⟨outcome, h, -⟩ := Engine.run_map_ok.mp h
    refine Or.inl ?_
    rcases applyEvent_cases (run_eventTransaction h) with
      ⟨-, rfl⟩ | ⟨program, -, ha⟩ | ⟨program, reference, -, he⟩
    · exact hverified
    · exact verified_of_row (program?_id ha.found) (by
        rw [withAppliedEffectiveAt_positionVerified]; rfl) (ha.program?_after p) hverified
    · exact verified_of_row (program?_id he.found) withAppliedEffectiveAt_positionVerified
        (he.program?_after p) hverified
  | snapshot rt message coordinates =>
    obtain ⟨outcome, hrun, rfl⟩ := Engine.run_map_ok.mp h
    rcases applySnapshot_cases (run_snapshotTransaction hrun) with
      ⟨-, rfl⟩ | ⟨rfl, _, program, _, _, _, ha⟩
    · exact Or.inl hverified
    · by_cases hid : program.id = p
      · exact Or.inr ⟨rt, message, coordinates, rfl, (Db.id_of_program? ha.found).symm.trans hid⟩
      · refine Or.inl (hverified.congr ?_)
        rw [ha.program?_after, if_neg hid]

/-! ## Beside others -/

/-- A system of locked transactions and holds. -/
abbrev WatchedSys := Sys Stmt Db Write Failure WatchedReply WatchedTransaction Key

/-- The states that locked transactions and holds can reach from a database. -/
abbrev Watched (start : Db) (sys : WatchedSys) : Prop :=
  Reachable engine locks WatchedTransaction.tx start sys

/-- The steps of locked transactions and holds. -/
abbrev WatchedStep (sys sys' : WatchedSys) : Prop :=
  Step engine locks WatchedTransaction.tx sys sys'

/-- The record of a key, as it was committed at some earlier point. -/
def SeenBefore (start : Db) (sys : WatchedSys) (identity : RequestIdentity)
    (row : RequestRecordEntity) : Prop :=
  ∃ earlier, Watched start earlier ∧ Steps engine locks WatchedTransaction.tx earlier sys ∧
    earlier.committed.request? identity.organisationId identity.requestId = some row

/-- A write, as what is left to do. -/
def watched (t : Transaction WriteOutcome) : Transaction WatchedReply :=
  (t.map LockedReply.write).map .locked

/-- An answer, as what is left to do. -/
def watchedAnswer : Except Failure WriteOutcome → Transaction WatchedReply
  | .ok outcome => .pure (.locked (.write outcome))
  | .error failure => .throw failure

/-- **What is left to do of a write** that has not inserted its record.
Where it is answered from a record, that record was seen. -/
inductive Waiting (seen : RequestRecordEntity → Prop) (q : WriteRequest) :
    Transaction WatchedReply → Prop
  /-- It has not locked its program. -/
  | begun : Waiting seen q (watched q.tx)
  /-- It has yet to insert its record. -/
  | asking (program : ProgramEntity) :
      Waiting seen q (watched (withIdempotency q.identity q.now (q.proceed program)))
  /-- Its record was there, and it has yet to read it. -/
  | reading :
      Waiting seen q (watched (query (.selectRequest q.identity.organisationId
        q.identity.requestId) >>= q.identity.answered))
  /-- It was answered from its record. -/
  | answered (row : RequestRecordEntity) :
      seen row → Waiting seen q (watchedAnswer (q.identity.answer row))
  /-- It has failed. -/
  | failed (failure : Failure) : Waiting seen q (.throw failure)

section Waiting

variable {seen seen' : RequestRecordEntity → Prop} {q : WriteRequest}
variable {rest : Transaction WatchedReply}

omit [Sha256] in
theorem Waiting.mono (h : Waiting seen q rest) (hseen : ∀ row, seen row → seen' row) :
    Waiting seen' q rest := by
  cases h with
  | begun => exact .begun
  | asking program => exact .asking program
  | reading => exact .reading
  | answered row hrow => exact .answered row (hseen row hrow)
  | failed failure => exact .failed failure

omit [Sha256] in
/-- **One statement of a waiting write**: it writes nothing and waits on, or
it inserts its record. -/
theorem Waiting.exec {β : Type} {s : Stmt β} {k : β → Transaction WatchedReply} {b : β}
    {ws : List Write} (h : Waiting seen q rest) (hrest : rest = .exec s k)
    (hx : Stmt.exec s db = .ok (b, ws))
    (hseen : ∀ row, db.request? q.identity.organisationId q.identity.requestId = some row →
      seen row) :
    ws = [] ∧ Waiting seen q (k b) ∨ q.guard ∈ locks.taken s b ws := by
  cases h with
  | begun =>
    cases hrest
    cases hx
    refine Or.inl ⟨rfl, ?_⟩
    cases db.program? (Uuid.ofText q.programId) with
    | none => exact .failed _
    | some program => exact .asking program
  | asking program =>
    rw [withIdempotency_eq] at hrest
    cases hrest
    simp only [Stmt.exec] at hx
    split at hx
    · cases hx
      exact Or.inl ⟨rfl, .reading⟩
    · simp only [guarded_ok, Prod.mk.injEq] at hx
      obtain ⟨-, rfl, rfl⟩ := hx
      refine Or.inr (Locks.keys_subset_taken List.mem_cons_self ?_)
      simp [locks, Write.keys, WriteRequest.guard]
  | reading =>
    cases hrest
    cases hx
    refine Or.inl ⟨rfl, ?_⟩
    cases hrow : db.request? q.identity.organisationId q.identity.requestId with
    | none => exact .failed _
    | some row =>
      have hanswered : Waiting seen q (watchedAnswer (q.identity.answer row)) :=
        .answered row (hseen row hrow)
      refine Eq.subst (motive := Waiting seen q) ?_ hanswered
      simp only [RequestIdentity.answered, Tx.bind]
      cases q.identity.answer row <;> rfl
  | answered row hrow =>
    cases hanswer : q.identity.answer row <;> rw [hanswer] at hrest <;> cases hrest
  | failed failure => cases hrest

omit [Sha256] in
/-- A waiting write that has its answer has it from a record that was seen. -/
theorem Waiting.pure {reply : WatchedReply} (h : Waiting seen q rest) (hrest : rest = .pure reply) :
    ∃ row outcome, seen row ∧ q.identity.answer row = .ok outcome ∧
      reply = .locked (.write outcome) := by
  cases h with
  | begun => cases hrest
  | asking program =>
    rw [withIdempotency_eq] at hrest
    cases hrest
  | reading => cases hrest
  | answered row hrow =>
    cases hanswer : q.identity.answer row with
    | ok outcome =>
      rw [hanswer] at hrest
      cases hrest
      exact ⟨row, outcome, hrow, hanswer, rfl⟩
    | error failure =>
      rw [hanswer] at hrest
      cases hrest
  | failed failure => cases hrest

end Waiting

variable {start : Db} {sys sys' : WatchedSys}
variable {a : Active Stmt Write Failure WatchedReply WatchedTransaction Key}

omit [Sha256] in
/-- Where a hold under way is. -/
inductive HoldPhase (start : Db) (p : Uuid)
    (a : Active Stmt Write Failure WatchedReply WatchedTransaction Key) : Prop
  | begun : a.rest = (query (.holdProgram p)).map (fun _ => .held) → a.writes = [] →
      HoldPhase start p a
  | held (row : ProgramEntity) : a.rest = .pure .held → row.id = p →
      row.positionVerified = false → a.writes = [.program row] → HoldPhase start p a
  | missing : a.rest = .pure .held → a.writes = [] → start.program? p = none → HoldPhase start p a

omit [Sha256] in
/-- A reply that comes with no effect. -/
def WatchedReply.Idle : WatchedReply → Prop
  | .locked reply => reply.Idle
  | .held => False

omit [Sha256] in
/-- The key a transaction inserts first. A hold has none. -/
def WatchedTransaction.guard : WatchedTransaction → Option Key
  | .locked t => some t.guard
  | .hold _ => none

theorem WatchedTransaction.disciplined {i : WatchedTransaction} {g : Key}
    (h : i.guard = some g) : Disciplined keyed WatchedReply.Idle g i.tx := by
  cases i with
  | locked t =>
    cases h
    have ht := t.disciplined
    exact ⟨ht.inScope.map _, Keyed.Guarded.map keyed (Q := WatchedReply.Idle) _ ht.guarded⟩
  | hold p => cases h

theorem Watched.inv (h : Watched start sys) :
    Inv keyed WatchedReply.Idle WatchedTransaction.tx WatchedTransaction.guard sys :=
  Reachable.inv (fun _ _ => WatchedTransaction.disciplined) h

theorem SeenBefore.step {identity : RequestIdentity} {row : RequestRecordEntity}
    (h : SeenBefore start sys identity row) (hs : WatchedStep sys sys') :
    SeenBefore start sys' identity row := by
  obtain ⟨earlier, hearlier, hsteps, hrow⟩ := h
  exact ⟨earlier, hearlier, hsteps.tail hs, hrow⟩

/-- A program that was there at the start is there. -/
theorem Watched.program?_isSome (h : Watched start sys) (hp : (start.program? p).isSome = true) :
    (sys.committed.program? p).isSome = true :=
  Reachable.mono (P := fun c => (c.program? p).isSome = true)
    (fun _ _ => Db.isSome_program?_apply) hp h

/-- **Where a transaction under way is**: a write that has not inserted its
record waits, and a hold is where it can be. -/
structure Placed (start : Db) (sys : WatchedSys)
    (a : Active Stmt Write Failure WatchedReply WatchedTransaction Key) : Prop where
  write : ∀ t q, a.label = .locked t → t.request? = some q →
    q.guard ∈ a.held ∨ a.writes = [] ∧ Waiting (SeenBefore start sys q.identity) q a.rest
  hold : ∀ p, a.label = .hold p → HoldPhase start p a

theorem Placed.step (h : Placed start sys a) (hs : WatchedStep sys sys') : Placed start sys' a := by
  refine ⟨fun t q hlabel hq => ?_, h.hold⟩
  rcases h.write t q hlabel hq with hheld | ⟨hw, hwaiting⟩
  · exact Or.inl hheld
  · exact Or.inr ⟨hw, hwaiting.mono fun row hrow => hrow.step hs⟩

theorem placed_begin {i : WatchedTransaction} : Placed start sys ⟨i, i.tx, [], []⟩ := by
  refine ⟨fun t q hlabel hq => Or.inr ⟨rfl, ?_⟩, fun p hlabel => ?_⟩
  · obtain rfl : i = .locked t := hlabel
    have htx : WatchedTransaction.tx (.locked t) = watched q.tx := by
      rw [WatchedTransaction.tx, t.tx_of_request hq]
      rfl
    rw [htx]
    exact .begun
  · obtain rfl : i = .hold p := hlabel
    exact .begun rfl rfl

/-- **One statement.** -/
theorem Placed.exec {β : Type} {s : Stmt β} {k : β → Transaction WatchedReply} {b : β}
    {ws : List Write} (hr : Watched start sys) (h : Placed start sys a)
    (hrest : a.rest = .exec s k) (hx : engine.exec s (sys.view engine a) = .ok (b, ws)) :
    Placed start sys ⟨a.label, k b, a.writes ++ ws, a.held ++ locks.taken s b ws⟩ := by
  refine ⟨fun t q hlabel hq => ?_, fun p hlabel => ?_⟩
  · rcases h.write t q hlabel hq with hheld | ⟨hw, hwaiting⟩
    · exact Or.inl (List.mem_append_left _ hheld)
    · rw [Sys.view, hw, Engine.applyAll_nil] at hx
      have hseen : ∀ row, sys.committed.request? q.identity.organisationId q.identity.requestId =
          some row → SeenBefore start sys q.identity row := fun row hrow =>
        ⟨sys, hr, Relation.ReflTransGen.refl, hrow⟩
      rcases hwaiting.exec hrest (Stmt.exec_of_send hx) hseen with ⟨rfl, hnext⟩ | htaken
      · exact Or.inr ⟨by simp [hw], hnext⟩
      · exact Or.inl (List.mem_append_right _ htaken)
  · cases h.hold p hlabel with
    | begun hbegun hw =>
      rw [hbegun] at hrest
      cases hrest
      rw [Sys.view, hw, Engine.applyAll_nil] at hx
      cases hp : sys.committed.program? p with
      | none =>
        replace hx := Stmt.exec_of_send hx
        simp only [Stmt.exec, hp, Option.toList_none, List.map_nil, Except.ok.injEq,
          Prod.mk.injEq] at hx
        obtain ⟨-, rfl⟩ := hx
        refine .missing rfl (by simp [hw]) ?_
        by_contra hstart
        have hsome := hr.program?_isSome (Option.isSome_iff_ne_none.mpr hstart)
        rw [hp] at hsome
        cases hsome
      | some row =>
        replace hx := Stmt.exec_of_send hx
        simp only [Stmt.exec, hp, Option.toList_some, List.map_cons, List.map_nil,
          Except.ok.injEq, Prod.mk.injEq] at hx
        obtain ⟨-, rfl⟩ := hx
        have hid : row.id = p := Db.id_of_program? hp
        exact .held { row with positionVerified := false } rfl hid rfl (by simp [hw])
    | held row hheld => rw [hheld] at hrest; cases hrest
    | missing hmissing => rw [hmissing] at hrest; cases hrest

theorem Watched.placed (h : Watched start sys) {n : ℕ} (ha : sys.active n = some a) :
    Placed start sys a :=
  Reachable.each h (fun _ _ => placed_begin)
    (fun _ _ {_} _ _ _ _ hr hp hrest hx => hp.exec hr hrest hx)
    (fun _ _ _ hp hs => hp.step hs) n a ha

/-! ## Commits -/

/-- What a write of a held program comes to: nothing is changed, and it is
answered from a record that was committed before. -/
def RepliesFromBefore (start : Db) (sys sys' : WatchedSys) (identity : RequestIdentity)
    (reply : WatchedReply) : Prop :=
  sys'.committed = sys.committed ∧ ∃ outcome earlier, reply = .locked (.write outcome) ∧
    outcome.created = false ∧ Watched start earlier ∧
    Steps engine locks WatchedTransaction.tx earlier sys ∧
    Replayed identity earlier.committed outcome

omit [Sha256] in
theorem replayed_not_created {identity : RequestIdentity} {outcome : WriteOutcome}
    (h : Replayed identity db outcome) : outcome.created = false := by
  obtain ⟨row, -, hanswer⟩ := h
  exact (answer_ok.mp hanswer).2.2.2.2

/-- **A write of a held program that commits.** -/
theorem Watched.replies (h : Watched start sys) {n : ℕ} {t : LockedTransaction} {q : WriteRequest}
    {reply : WatchedReply} (ha : sys.active n = some a) (hlabel : a.label = .locked t)
    (hq : t.request? = some q) (hrest : a.rest = .pure reply)
    (hheld : Held (Uuid.ofText q.programId) sys.committed) :
    RepliesFromBefore start sys ⟨sys.view engine a, Function.update sys.active n none,
      sys.history ++ [(a.label, reply)]⟩ q.identity reply := by
  obtain ⟨w, rfl⟩ := t.exists_write hq
  rcases (h.placed ha).write t _ hlabel hq with hguard | ⟨hw, hwaiting⟩
  · -- it has inserted its record, and so it answers as it does run alone
    have hv := h.inv.valid n a t.guard ha (by rw [hlabel]; rfl)
    rcases hv.exact_or with ⟨e, he⟩ | ⟨fp, hp, -⟩ | ⟨hnot, -⟩
    · rw [hrest] at he
      cases he
    · rw [hrest] at hp
      have hrun : engine.run (t.tx.map .locked) sys.committed =
          .ok (reply, sys.view engine a) := by
        have heq := hp.run_eq
        rw [hlabel] at heq
        exact heq
      rw [t.tx_of_request hq] at hrun
      obtain ⟨inner, hinner, rfl⟩ := Engine.run_map_ok.mp hrun
      obtain ⟨outcome, houtcome, rfl⟩ := Engine.run_map_ok.mp hinner
      obtain ⟨hreplayed, hsame⟩ := replayed_of_held hheld houtcome
      exact ⟨hsame, outcome, sys, rfl, replayed_not_created hreplayed, h,
        Relation.ReflTransGen.refl, hreplayed⟩
    · rw [t.guard_of_request hq] at hnot
      exact absurd hguard hnot
  · obtain ⟨row, outcome, ⟨earlier, hearlier, hsteps, hrow⟩, hanswer, rfl⟩ := hwaiting.pure hrest
    have hreplayed : Replayed w.request.identity earlier.committed outcome := ⟨row, hrow, hanswer⟩
    refine ⟨?_, outcome, earlier, rfl, replayed_not_created hreplayed, hearlier, hsteps, hreplayed⟩
    change sys.view engine a = sys.committed
    rw [Sys.view, hw, Engine.applyAll_nil]

omit [Sha256] in
/-- A held program is held after any version of it that is. -/
theorem Held.apply (h : Held p db) {row : ProgramEntity} (hrow : row.positionVerified = false) :
    Held p (db.apply (.program row)) := by
  obtain ⟨program, hp, hmark⟩ := h
  by_cases hid : row.id = p
  · exact ⟨row, by simp [hid], hrow⟩
  · exact ⟨program, by simp [hid, hp], hmark⟩

/-- **The mark of a held program is taken back only by a snapshot.** -/
theorem Watched.held_step (h : Watched start sys) (hs : WatchedStep sys sys')
    (hheld : Held p sys.committed) : Held p sys'.committed ∨
      ∃ commit, Clears p commit ∧ sys'.history = sys.history ++ [commit] := by
  cases hs with
  | begin | exec | abort => exact Or.inl hheld
  | commit n a reply ha hrest =>
    cases hlabel : a.label with
    | locked t =>
      have hv := h.inv.valid n a t.guard ha (by rw [hlabel]; rfl)
      rcases hv.run_eq hrest with hrun | ⟨-, hw⟩
      · rw [hlabel] at hrun
        obtain ⟨inner, hinner, rfl⟩ := Engine.run_map_ok.mp hrun
        by_cases hclears : Clears p (.locked t, .locked inner)
        · exact Or.inr ⟨_, hclears, rfl⟩
        · obtain ⟨hsome, hunverified⟩ := held_iff.mp hheld
          refine Or.inl (held_iff.mpr ⟨?_, fun hverified => ?_⟩)
          · exact Engine.applyAll_mono (P := fun c : Db => (c.program? p).isSome = true)
              (fun _ _ => Db.isSome_program?_apply) hsome
          · exact (verified_locked hinner hverified).elim hunverified hclears
      · refine Or.inl ?_
        change Held p (sys.view engine a)
        rwa [Sys.view, hw, Engine.applyAll_nil]
    | hold q =>
      refine Or.inl ?_
      change Held p (sys.view engine a)
      cases (h.placed ha).hold q hlabel with
      | begun hbegun => rw [hbegun] at hrest; cases hrest
      | held row hpure hid hmark hw =>
        rw [Sys.view, hw]
        exact hheld.apply hmark
      | missing hpure hw => rwa [Sys.view, hw, Engine.applyAll_nil]

/-- A hold that commits holds its program. -/
theorem Watched.held_of_hold (h : Watched start sys) (hs : WatchedStep sys sys')
    (hcommit : sys'.history = sys.history ++ [(.hold p, .held)])
    (hp : (start.program? p).isSome = true) : Held p sys'.committed := by
  cases hs with
  | begin | exec | abort => simp at hcommit
  | commit n a reply ha hrest =>
    have hlast : (a.label, reply) = (.hold p, .held) := by simpa using hcommit
    have hlabel : a.label = .hold p := congrArg Prod.fst hlast
    change Held p (sys.view engine a)
    cases (h.placed ha).hold p hlabel with
    | begun hbegun => rw [hbegun] at hrest; cases hrest
    | held row hpure hid hmark hw =>
      rw [Sys.view, hw]
      exact ⟨row, by simp [hid], hmark⟩
    | missing hpure hw hstart =>
      rw [hstart] at hp
      cases hp

/-- **A run.** A held program is held until a snapshot of it has been applied. -/
theorem Watched.held_steps (h : Watched start sys)
    (hsteps : Steps engine locks WatchedTransaction.tx sys sys') (hheld : Held p sys.committed)
    {later : List (WatchedTransaction × WatchedReply)}
    (hlater : sys'.history = sys.history ++ later) (hnone : ∀ commit ∈ later, ¬ Clears p commit) :
    Held p sys'.committed := by
  have hsteps' : Relation.ReflTransGen (Step engine locks WatchedTransaction.tx) sys sys' := hsteps
  induction hsteps' generalizing later with
  | refl => exact hheld
  | @tail mid next hmid hs ih =>
    obtain ⟨first, hfirst⟩ := Steps.history hmid
    obtain ⟨last, hlast⟩ := Steps.history (Relation.ReflTransGen.single hs)
    have hsplit : later = first ++ last := by
      rw [hlast, hfirst, List.append_assoc] at hlater
      exact (List.append_cancel_left hlater).symm
    have hbefore : Held p mid.committed :=
      ih hmid hfirst fun commit hcommit => hnone commit (by simp [hsplit, hcommit])
    have hreached : Watched start mid := Reachable.trans h hmid
    rcases hreached.held_step hs hbefore with hafter | ⟨commit, hclears, hcommit⟩
    · exact hafter
    · refine absurd hclears (hnone commit ?_)
      have hone : last = [commit] := List.append_cancel_left (hlast.symm.trans hcommit)
      simp [hsplit, hone]

/-- An attempt that leaves the tables as they are, and fails where it is new:
it is refused, or its rate throws, or the database cannot hold its texts. -/
structure RefusedHeld (t : LockedTransaction) (q : WriteRequest) (db : Db) : Prop where
  unchanged : engine.effect t.tx db = db
  refused : db.request? q.identity.organisationId q.identity.requestId = none →
    db.organisations.contains q.identity.organisationId = true →
    (∃ code details, engine.run t.tx db = .error (.refusal code details)) ∨
      (∃ e, engine.run t.tx db = .error (.typeError e)) ∨
      ¬ q.Storable ∧ ∃ e, engine.run t.tx db = .error (.sql e)

theorem refusedHeld {t : LockedTransaction} {q : WriteRequest} (hq : t.request? = some q)
    (hheld : Held (Uuid.ofText q.programId) db) : RefusedHeld t q db := by
  obtain ⟨w, rfl⟩ := t.exists_write hq
  constructor
  · rw [t.tx_of_request hq, Engine.effect_map]
    exact Engine.effect_induct (P := fun c => c = db) rfl fun outcome c hrun =>
      (replayed_of_held hheld hrun).2
  · intro hnew horganisation
    rw [t.tx_of_request hq]
    rcases refused_of_held hheld hnew horganisation with
      ⟨code, details, hrun⟩ | ⟨e, hrun⟩ | ⟨hunstorable, e, hrun⟩
    · exact Or.inl ⟨code, details, Engine.run_map_error hrun⟩
    · exact Or.inr (Or.inl ⟨e, Engine.run_map_error hrun⟩)
    · exact Or.inr (Or.inr ⟨hunstorable, e, Engine.run_map_error hrun⟩)

/-- **A held program stays held until a snapshot of it is applied.** A hold
that commits holds its program. From any state where a program is held, and
for as long as no snapshot of it is applied, it is held; only the commit of
an applied snapshot of it takes the mark back; a write of it that commits
changes nothing and is answered from a record that was committed before;
and every other attempt leaves all tables as they are, and one that is new is
refused, but for a `TypeError` of the rate provider and for texts that the
database cannot hold. -/
theorem held_until_snapshot (h : Watched start sys) :
    (∀ p next, WatchedStep sys next → next.history = sys.history ++ [(.hold p, .held)] →
      (start.program? p).isSome = true → Held p next.committed) ∧
    ∀ p later sys', Held p sys.committed → Steps engine locks WatchedTransaction.tx sys sys' →
      sys'.history = sys.history ++ later → (∀ commit ∈ later, ¬ Clears p commit) →
        Held p sys'.committed ∧
        (∀ next, WatchedStep sys' next → Held p next.committed ∨
          ∃ commit, Clears p commit ∧ next.history = sys'.history ++ [commit]) ∧
        (∀ next (t : LockedTransaction) (q : WriteRequest) reply, WatchedStep sys' next →
          next.history = sys'.history ++ [(.locked t, reply)] → t.request? = some q →
          Uuid.ofText q.programId = p → RepliesFromBefore start sys' next q.identity reply) ∧
        ∀ (t : LockedTransaction) (q : WriteRequest), t.request? = some q →
          Uuid.ofText q.programId = p → RefusedHeld t q sys'.committed := by
  refine ⟨fun p next hs hcommit hp => h.held_of_hold hs hcommit hp, ?_⟩
  intro p later sys' hheld hsteps hlater hnone
  have hreached : Watched start sys' := Reachable.trans h hsteps
  have hstill : Held p sys'.committed := h.held_steps hsteps hheld hlater hnone
  refine ⟨hstill, fun next hs => hreached.held_step hs hstill, ?_, ?_⟩
  · intro next t q reply hs hcommit hq hid
    cases hs with
    | begin | exec | abort => simp at hcommit
    | commit n a answer ha hrest =>
      have hlast : (a.label, answer) = (.locked t, reply) := by simpa using hcommit
      obtain ⟨hlabel, rfl⟩ := Prod.mk.inj hlast
      exact hreached.replies ha hlabel hq hrest (hid ▸ hstill)
  · intro t q hq hid
    exact refusedHeld hq (hid ▸ hstill)

end InvoiceReservation

namespace InvoiceReservation

open Transactions

attribute [local instance] trafficSha256

/-- A reserve of 100 in the first program. -/
def firstReserve : LockedTransaction := .reserve (callAt 1) (reserveCommand "req-00001" "INV-1" 100)

theorem held_until_snapshot_firstReserve : ∃ sys, Watched seeded sys ∧
    Held (Uuid.ofText northwindUsdProgramId) sys.committed ∧
    ∃ q, firstReserve.request? = some q ∧ RefusedHeld firstReserve q sys.committed := by
  have hmark : ((runAll engine WatchedTransaction.tx [.hold (Uuid.ofText northwindUsdProgramId)]
      seeded).map fun r => (r.2.program? (Uuid.ofText northwindUsdProgramId)).map
        (·.positionVerified)) = some (some false) := by
    rw [seeded_eq]
    decide +kernel
  obtain ⟨⟨later, db⟩, hrun, hmarked⟩ := Option.map_eq_some_iff.mp hmark
  obtain ⟨program, hp, hheld⟩ := Option.map_eq_some_iff.mp hmarked
  have hstart : Watched seeded ⟨seeded, fun _ => none, []⟩ := Relation.ReflTransGen.refl
  have hreached : Watched seeded ⟨db, fun _ => none, [] ++ later⟩ := (hstart.runAll hrun).1
  have hrefused := ((held_until_snapshot hreached).2 (Uuid.ofText northwindUsdProgramId) [] _
    ⟨program, hp, hheld⟩ Relation.ReflTransGen.refl (List.append_nil _).symm (by simp)).2.2.2
      firstReserve _ rfl rfl
  exact ⟨_, hreached, ⟨program, hp, hheld⟩, _, rfl, hrefused⟩

end InvoiceReservation
