import InvoiceReservation.Helpers.Requests
import InvoiceReservation.Model.Seed
/-!
# Exactly once for every key

Requests and retention sweeps, interleaved. The record of a key is what
its commits have come to: none before the first, and after it the first
body, until a sweep expires it. Every later request of the key is answered
from that record, whatever program it locks.
-/

namespace InvoiceReservation

open Transactions

variable [Sha256] {start : Db}

/-- The states that requests and sweeps can reach from a database. -/
abbrev Requested (db : Db) (sys : Sys Stmt Db Write Failure RequestReply RequestTransaction Key) :
    Prop :=
  Reachable engine locks RequestTransaction.tx db sys

/-- The requests of a key that committed, with what they were answered. -/
def requestsOf (key : Uuid × String) (history : List (RequestTransaction × RequestReply)) :
    List (RequestIdentity × WriteOutcome) :=
  history.filterMap fun
    | (i, .write outcome) =>
      (i.request?.filter (·.identity.key = key)).map fun q => (q.identity, outcome)
    | (_, .swept _) => none

omit [Sha256] in
/-- The commits of a key: the first had an effect, and every later one was
answered with its body. -/
def Once (identity : RequestIdentity) (body : WriteBody)
    (requests : List (RequestIdentity × WriteOutcome)) : Prop :=
  ∃ replays, requests = (identity, ⟨true, body⟩) :: replays ∧
    ∀ replay ∈ replays, replay.2 = ⟨false, body⟩ ∧ replay.1.operation = identity.operation ∧
      replay.1.fingerprint = identity.fingerprint

omit [Sha256] in
/-- The record of a key, whose first request was `identity` with the answer
`body`. -/
structure Recorded (identity : RequestIdentity) (body : WriteBody) (row : RequestRecordEntity) :
    Prop where
  operation : row.operation = identity.operation
  fingerprint : row.contentFingerprint = identity.fingerprint
  state : row.state = .complete ∧ row.outcome = some body ∨
    row.state = .expired ∧ row.outcome = none

omit [Sha256] in
/-- What a later request of the key is answered, by whether its record had
expired when it asked. -/
def laterAnswer (first : RequestIdentity) (body : WriteBody) (identity : RequestIdentity)
    (expired : Bool) : Except Failure WriteOutcome :=
  if first.operation = identity.operation ∧ first.fingerprint = identity.fingerprint then
    if expired then .error (.refusal .idempotencyExpired []) else .ok ⟨false, body⟩
  else .error (.refusal .idempotencyConflict [])

/-- **What the record of a key is**, after a history. -/
def Accounted (c : Db) (history : List (RequestTransaction × RequestReply))
    (organisationId : Uuid) (requestId : String) : Prop :=
  match c.request? organisationId requestId with
  | none => requestsOf (organisationId, requestId) history = []
  | some row => ∃ identity body, Recorded identity body row ∧
      Once identity body (requestsOf (organisationId, requestId) history)

omit [Sha256] in
/-- A record as a sweep leaves it. -/
def RequestRecordEntity.expire (row : RequestRecordEntity) : RequestRecordEntity :=
  { row with state := .expired, outcome := none }

omit [Sha256] in
/-- What a record can become: itself, or expired. -/
def Aged (old row : RequestRecordEntity) : Prop :=
  row = old ∨ old.state = .complete ∧ row = old.expire

section Records

variable {first identity : RequestIdentity} {body : WriteBody} {row old : RequestRecordEntity}

omit [Sha256] in
/-- A record answers from its first request. -/
theorem Recorded.answer (h : Recorded first body row) :
    identity.answer row = laterAnswer first body identity (row.state = .expired) := by
  unfold laterAnswer RequestIdentity.answer decideReplay
  rw [h.operation, h.fingerprint]
  by_cases hsame : first.operation = identity.operation ∧ first.fingerprint = identity.fingerprint
  · simp only [hsame, and_self, if_true, not_true_eq_false, ne_eq, or_self, if_false]
    rcases h.state with ⟨hs, ho⟩ | ⟨hs, ho⟩
    · simp [hs, ho]
    · simp [hs]
  · rw [if_neg hsame, if_pos (not_and_or.mp hsame)]

omit [Sha256] in
theorem Recorded.aged (h : Recorded first body old) (ha : Aged old row) :
    Recorded first body row := by
  rcases ha with rfl | ⟨-, rfl⟩
  · exact h
  · exact ⟨h.operation, h.fingerprint, Or.inr ⟨rfl, rfl⟩⟩

omit [Sha256] in
theorem Aged.trans {row' : RequestRecordEntity} (h : Aged old row) (h' : Aged row row') :
    Aged old row' := by
  rcases h with rfl | ⟨hc, rfl⟩
  · exact h'
  · rcases h' with rfl | ⟨he, -⟩
    · exact Or.inr ⟨hc, rfl⟩
    · cases he

omit [Sha256] in
/-- What has expired stays expired. -/
theorem Aged.expired (h : Aged old row) (hold : old.state = .expired) : row.state = .expired := by
  rcases h with rfl | ⟨-, rfl⟩
  · exact hold
  · rfl

end Records

/-! ## A request under way -/

variable {sys sys' : Sys Stmt Db Write Failure RequestReply RequestTransaction Key}
variable {a : Active Stmt Write Failure RequestReply RequestTransaction Key} {q : WriteRequest}
variable {floor : RequestRecordEntity → Prop}

omit [Sha256] in
/-- An answer, as what is left to do. -/
def answerTree : Except Failure WriteOutcome → Transaction RequestReply
  | .ok outcome => .pure (.write outcome)
  | .error failure => .throw failure

/-- **Where a request under way is.** Until it has inserted its record it
has written nothing. Where it is answered from its record, that record met
`floor` when it asked. -/
inductive Phase (start : Db) (floor : RequestRecordEntity → Prop) (q : WriteRequest)
    (sys : Sys Stmt Db Write Failure RequestReply RequestTransaction Key)
    (a : Active Stmt Write Failure RequestReply RequestTransaction Key) : Prop
  /-- It has not locked its program. -/
  | begun : a.rest = q.tx.map .write → a.writes = [] → Phase start floor q sys a
  /-- It has yet to insert its record. -/
  | asking (program : ProgramEntity) :
      a.rest = (withIdempotency q.identity q.now (q.proceed program)).map .write →
      a.writes = [] → Phase start floor q sys a
  /-- Its record was there, and it has yet to read it. -/
  | reading :
      a.rest = (query (.selectRequest q.identity.organisationId q.identity.requestId) >>=
        q.identity.answered).map .write →
      a.writes = [] →
      (sys.committed.request? q.identity.organisationId q.identity.requestId).isSome = true →
      Phase start floor q sys a
  /-- It was answered from its record. -/
  | answered (row current : RequestRecordEntity) (first : RequestIdentity) (body : WriteBody)
      (replays : List (RequestIdentity × WriteOutcome)) :
      a.rest = answerTree (q.identity.answer row) → a.writes = [] → floor row →
      sys.committed.request? q.identity.organisationId q.identity.requestId = some current →
      Aged row current → Recorded first body row →
      requestsOf q.identity.key sys.history = (first, ⟨true, body⟩) :: replays →
      Phase start floor q sys a
  /-- There is no such program, and there was none at the start. -/
  | missing :
      a.rest = .throw (.programNotFound q.programId) → a.writes = [] →
      start.program? (Uuid.ofText q.programId) = none → Phase start floor q sys a
  /-- It has inserted its record. -/
  | claimed : q.guard ∈ a.held → a.rest.Throws NotInFlight →
      sys.committed.request? q.identity.organisationId q.identity.requestId = none →
      Phase start floor q sys a

omit [Sha256] in
/-- Where a sweep under way is: the records it has written are complete in
the committed state, and it expires them. -/
inductive SweepPhase (sys : Sys Stmt Db Write Failure RequestReply RequestTransaction Key)
    (a : Active Stmt Write Failure RequestReply RequestTransaction Key) : Prop
  | begun (now : Timestamp) (days : Int) :
      a.rest = (sweep now days).map .swept → a.writes = [] → SweepPhase sys a
  | swept (count : Nat) (rows : List RequestRecordEntity) :
      a.rest = .pure (.swept count) → a.writes = [.requests rows] →
      (∀ row ∈ rows, ∃ old, sys.committed.request? row.organisationId row.requestId = some old ∧
        old.state = .complete ∧ row = old.expire) →
      SweepPhase sys a

theorem requestsOf_append {key : Uuid × String} {xs ys : List (RequestTransaction × RequestReply)} :
    requestsOf key (xs ++ ys) = requestsOf key xs ++ requestsOf key ys := by
  simp [requestsOf]

/-- A request stays where it is while others commit. -/
theorem Phase.stable (h : Phase start floor q sys a)
    (haged : ∀ row, sys.committed.request? q.identity.organisationId q.identity.requestId =
      some row → ∃ row', sys'.committed.request? q.identity.organisationId
        q.identity.requestId = some row' ∧ Aged row row')
    (hheld : q.guard ∈ a.held →
      sys'.committed.request? q.identity.organisationId q.identity.requestId =
        sys.committed.request? q.identity.organisationId q.identity.requestId)
    (hhistory : ∃ later, sys'.history = sys.history ++ later) : Phase start floor q sys' a := by
  cases h with
  | begun hrest hw => exact .begun hrest hw
  | asking program hrest hw => exact .asking program hrest hw
  | reading hrest hw hs =>
    obtain ⟨row, hrow⟩ := Option.isSome_iff_exists.mp hs
    obtain ⟨row', hrow', -⟩ := haged row hrow
    exact .reading hrest hw (by simp [hrow'])
  | answered row current first body replays hrest hw hf hcurrent ha hrecorded hfirst =>
    obtain ⟨current', hcurrent', ha'⟩ := haged current hcurrent
    obtain ⟨later, hl⟩ := hhistory
    refine .answered row current' first body (replays ++ requestsOf q.identity.key later) hrest hw
      hf hcurrent' (ha.trans ha') hrecorded ?_
    rw [hl, requestsOf_append, hfirst, List.cons_append]
  | missing hrest hw hm => exact .missing hrest hw hm
  | claimed hg ht hnone => exact .claimed hg ht ((hheld hg).trans hnone)

/-- **One statement of a request.** -/
theorem Phase.exec {β : Type} {s : Stmt β} {k : β → Transaction RequestReply} {b : β}
    {ws : List Write} (h : Phase start floor q sys a) (hrest : a.rest = .exec s k)
    (hx : Stmt.exec s (engine.applyAll a.writes sys.committed) = .ok (b, ws))
    (haccounted : Accounted sys.committed sys.history q.identity.organisationId
      q.identity.requestId)
    (hfloor : ∀ row, sys.committed.request? q.identity.organisationId q.identity.requestId =
      some row → floor row)
    (hprogram : sys.committed.program? (Uuid.ofText q.programId) = none →
      start.program? (Uuid.ofText q.programId) = none)
    (hthrows : ∀ program, (q.proceed program).Throws NotInFlight) :
    Phase start floor q sys ⟨a.label, k b, a.writes ++ ws, a.held ++ locks.taken s b ws⟩ := by
  cases h with
  | begun hr hw =>
    -- the lock of the program row tells whether there is a program
    rw [hr] at hrest
    cases hrest
    rw [hw] at hx ⊢
    cases hx
    rw [Engine.applyAll_nil]
    cases hp : sys.committed.program? (Uuid.ofText q.programId) with
    | none => exact .missing rfl rfl (hprogram hp)
    | some program => exact .asking program rfl rfl
  | asking program hr hw =>
    -- the insert claims the key, or finds it recorded
    rw [hr, withIdempotency_eq] at hrest
    cases hrest
    rw [hw] at hx ⊢
    rw [Engine.applyAll_nil] at hx
    simp only [Stmt.exec] at hx
    split at hx
    · rename_i hpresent
      cases hx
      exact .reading rfl rfl hpresent
    · rename_i hpresent
      simp only [guarded_ok, Prod.mk.injEq] at hx
      obtain ⟨-, rfl, rfl⟩ := hx
      refine .claimed (List.mem_append_right _ (Locks.keys_subset_taken List.mem_cons_self ?_))
        (hthrows program).map (by simpa using hpresent)
      simp [locks, Write.keys, WriteRequest.guard]
  | reading hr hw hs =>
    -- the record that is read is the answer, a replay or a conflict
    rw [hr] at hrest
    cases hrest
    rw [hw] at hx ⊢
    cases hx
    rw [Engine.applyAll_nil]
    obtain ⟨row, hrow⟩ := Option.isSome_iff_exists.mp hs
    rw [Accounted, hrow] at haccounted
    obtain ⟨first, body, hrecorded, replays, hfirst, -⟩ := haccounted
    refine .answered row row first body replays ?_ rfl (hfloor row hrow) hrow (Or.inl rfl)
      hrecorded hfirst
    rw [hrow]
    simp only [RequestIdentity.answered, Tx.bind]
    cases q.identity.answer row <;> rfl
  | answered row current first body replays hr =>
    rw [hr] at hrest
    cases ha : q.identity.answer row <;> rw [ha] at hrest <;> cases hrest
  | missing hr hw hm => rw [hr] at hrest; cases hrest
  | claimed hg ht hnone =>
    rw [hrest] at ht
    exact .claimed (List.mem_append_left _ hg) (ht b) hnone

omit [Sha256] in
/-- A sweep stays where it is while the records it has written are not
written by others. -/
theorem SweepPhase.stable (h : SweepPhase sys a)
    (hsame : ∀ w ∈ a.writes, ∀ o r, .request o r ∈ w.keys →
      sys'.committed.request? o r = sys.committed.request? o r) : SweepPhase sys' a := by
  cases h with
  | begun now days hrest hw => exact .begun now days hrest hw
  | swept count rows hrest hw hrows =>
    refine .swept count rows hrest hw fun row hrow => ?_
    have hkey : Key.request row.organisationId row.requestId ∈ (Write.requests rows).keys :=
      List.mem_map.mpr ⟨row, hrow, rfl⟩
    rw [hsame _ (by simp [hw]) _ _ hkey]
    exact hrows row hrow

omit [Sha256] in
/-- **The statement of a sweep.** -/
theorem SweepPhase.exec {β : Type} {s : Stmt β} {k : β → Transaction RequestReply} {b : β}
    {ws : List Write} (h : SweepPhase sys a) (hrest : a.rest = .exec s k)
    (hx : Stmt.exec s (engine.applyAll a.writes sys.committed) = .ok (b, ws))
    (hkeys : (sys.committed.requests.map RequestRecordEntity.key).Nodup) :
    SweepPhase sys ⟨a.label, k b, a.writes ++ ws, a.held ++ locks.taken s b ws⟩ := by
  cases h with
  | begun now days hr hw =>
    rw [hr] at hrest
    cases hrest
    rw [hw] at hx ⊢
    cases hx
    refine .swept _ _ rfl rfl fun row hrow => ?_
    obtain ⟨old, hold, rfl⟩ := List.mem_map.mp hrow
    rw [Engine.applyAll_nil, List.mem_filter] at hold
    simp only [decide_eq_true_eq] at hold
    exact ⟨old, Table.get_of_mem hkeys hold.1, hold.2.1, rfl⟩
  | swept count rows hr hw hrows => rw [hr] at hrest; cases hrest

/-! ## Commits -/

section Commits

variable {c c' : Db} {history : List (RequestTransaction × RequestReply)} {i : RequestTransaction}
variable {outcome : WriteOutcome}

theorem requestsOf_write {key : Uuid × String} (hq : i.request? = some q) :
    requestsOf key [(i, .write outcome)] =
      if q.identity.key = key then [(q.identity, outcome)] else [] := by
  by_cases hk : q.identity.key = key <;> simp [requestsOf, hq, Option.filter, hk]

/-- A replay adds to the commits of its key. -/
theorem Accounted.replay {first : RequestIdentity} {body : WriteBody}
    {replays : List (RequestIdentity × WriteOutcome)} {row : RequestRecordEntity}
    (h : ∀ o r, Accounted c history o r) (hq : i.request? = some q)
    (hfirst : requestsOf q.identity.key history = (first, ⟨true, body⟩) :: replays)
    (hrecorded : Recorded first body row) (hanswer : q.identity.answer row = .ok outcome)
    (o : Uuid) (r : String) : Accounted c (history ++ [(i, .write outcome)]) o r := by
  have hor := h o r
  unfold Accounted at hor ⊢
  rw [requestsOf_append, requestsOf_write hq]
  by_cases hk : q.identity.key = (o, r)
  · rw [hk] at hfirst
    have hout : outcome = ⟨false, body⟩ ∧ first.operation = q.identity.operation ∧
        first.fingerprint = q.identity.fingerprint := by
      rw [hrecorded.answer] at hanswer
      unfold laterAnswer at hanswer
      split at hanswer
      · rename_i hsame
        split at hanswer
        · cases hanswer
        · cases hanswer; exact ⟨rfl, hsame⟩
      · cases hanswer
    cases hrow : c.request? o r with
    | none => simp [hrow, hfirst] at hor
    | some current =>
      simp only [hrow] at hor
      obtain ⟨identity, body', hcurrent, replays', hreplays, hall⟩ := hor
      rw [hfirst] at hreplays
      simp only [List.cons.injEq, Prod.mk.injEq, WriteOutcome.mk.injEq, true_and] at hreplays
      obtain ⟨⟨rfl, rfl⟩, rfl⟩ := hreplays
      refine ⟨first, body, hcurrent, replays ++ [(q.identity, outcome)], ?_, ?_⟩
      · rw [hfirst, if_pos hk, List.cons_append]
      · intro replay hr
        rcases List.mem_append.mp hr with hr | hr
        · exact hall replay hr
        · obtain rfl := List.mem_singleton.mp hr
          exact ⟨hout.1, hout.2.1.symm, hout.2.2.symm⟩
  · rw [if_neg hk, List.append_nil]
    exact hor

/-- A created write is the first commit of its key. -/
theorem Accounted.opened (h : ∀ o r, Accounted c history o r) (hq : i.request? = some q)
    (ho : Opened q outcome c c') (o : Uuid) (r : String) :
    Accounted c' (history ++ [(i, .write outcome)]) o r := by
  have hor := h o r
  unfold Accounted at hor ⊢
  rw [requestsOf_append, requestsOf_write hq]
  by_cases hk : q.identity.key = (o, r)
  · simp only [RequestIdentity.key, Prod.mk.injEq] at hk
    obtain ⟨rfl, rfl⟩ := hk
    rw [ho.new] at hor
    rw [ho.record, hor]
    obtain ⟨created, body⟩ := outcome
    have hcreated : created = true := ho.created
    subst hcreated
    exact ⟨q.identity, body, ⟨rfl, rfl, Or.inl ⟨rfl, rfl⟩⟩, [], by simp [RequestIdentity.key],
      by simp⟩
  · rw [if_neg hk, List.append_nil, ho.others o r (Ne.symm hk)]
    exact hor

/-- A sweep expires records and commits no request. -/
theorem Accounted.swept {rows : List RequestRecordEntity} {count : Nat}
    (h : ∀ o r, Accounted c history o r)
    (hrows : ∀ row ∈ rows, ∃ old, c.request? row.organisationId row.requestId = some old ∧
      old.state = .complete ∧ row = old.expire)
    (o : Uuid) (r : String) :
    Accounted (c.apply (.requests rows)) (history ++ [(i, .swept count)]) o r := by
  have hor := h o r
  unfold Accounted at hor ⊢
  have hnone : requestsOf (o, r) [(i, .swept count)] = [] := rfl
  rw [requestsOf_append, hnone, List.append_nil]
  rcases @Table.get_putAll_cases _ _ _ RequestRecordEntity.key (o, r) c.requests rows with
    he | ⟨row, hrow, hk, he⟩
  · have hread : (c.apply (.requests rows)).request? o r = c.request? o r := he
    rw [hread]; exact hor
  · have hread : (c.apply (.requests rows)).request? o r = some row := he
    obtain ⟨old, hold, hcomplete, hexpired⟩ := hrows row hrow
    simp only [RequestRecordEntity.key, Prod.mk.injEq] at hk
    rw [hk.1, hk.2] at hold
    simp only [hold] at hor
    rw [hread]
    obtain ⟨identity, body, hrecorded, honce⟩ := hor
    exact ⟨identity, body, hrecorded.aged (Or.inr ⟨hcomplete, hexpired⟩), honce⟩

end Commits

/-! ## Every interleaving -/

omit [Sha256] in
theorem keys_nodup_apply {w : Write} {c : Db}
    (h : (c.requests.map RequestRecordEntity.key).Nodup) :
    ((c.apply w).requests.map RequestRecordEntity.key).Nodup := by
  cases w with
  | requests rows => exact Table.nodup_putAll h
  | _ => exact h

/-- The invariants every machine of this kind has. -/
theorem Requested.inv (h : Requested start sys) :
    Inv keyed RequestReply.Idle RequestTransaction.tx RequestTransaction.guard sys :=
  Reachable.inv (fun _ _ => RequestTransaction.disciplined) h

/-- A program that is not there was not there at the start. -/
theorem Requested.program?_none {p : Uuid} (h : Requested start sys)
    (hnone : sys.committed.program? p = none) : start.program? p = none := by
  by_contra hp
  have hsome := Reachable.mono (P := fun c => (c.program? p).isSome = true)
    (fun _ _ => Db.isSome_program?_apply) (Option.isSome_iff_ne_none.mpr hp) h
  simp [hnone] at hsome

/-- No two records have one key. -/
theorem Requested.keys_nodup (hstart : start.requests = []) (h : Requested start sys) :
    (sys.committed.requests.map RequestRecordEntity.key).Nodup :=
  Reachable.mono (P := fun c => (c.requests.map RequestRecordEntity.key).Nodup)
    (fun _ _ hc => keys_nodup_apply hc) (by simp [hstart]) h

/-- What others have locked, a commit does not touch. -/
theorem Requested.frame {t u : ℕ}
    {a' : Active Stmt Write Failure RequestReply RequestTransaction Key}
    {o : Uuid} {r : String} (h : Requested start sys) (hne : u ≠ t) (ha : sys.active t = some a)
    (ha' : sys.active u = some a') (hheld : Key.request o r ∈ a'.held) :
    (engine.applyAll a.writes sys.committed).request? o r = sys.committed.request? o r := by
  have hagree : Key.Agree (.request o r) sys.committed (engine.applyAll a.writes sys.committed) :=
    keyed.applyAll_frame fun w hw hk =>
      h.inv.exclusive u t a' a hne ha' ha _ hheld (h.inv.locked t a ha w hw _ hk)
  exact hagree.2.symm

/-- The requests `among` are each where a request can be. -/
def Phases (start : Db) (floor : RequestRecordEntity → Prop) (among : ℕ → WriteRequest → Prop)
    (sys : Sys Stmt Db Write Failure RequestReply RequestTransaction Key) : Prop :=
  ∀ t a q, among t q → sys.active t = some a → a.label.request? = some q →
    Phase start floor q sys a

/-- The invariant of the interleaving. -/
structure Exact (start : Db)
    (sys : Sys Stmt Db Write Failure RequestReply RequestTransaction Key) : Prop where
  accounted : ∀ o r, Accounted sys.committed sys.history o r
  phases : Phases start (fun _ => True) (fun _ _ => True) sys
  sweeps : ∀ t a, sys.active t = some a → a.label.request? = none → SweepPhase sys a

theorem Exact.begun (hstart : start.requests = []) : Exact start (Sys.start start) where
  accounted := by
    intro o r
    have hnone : start.request? o r = none := by simp [Db.request?, hstart]
    simp [Accounted, Sys.start, hnone, requestsOf]
  phases := by intro t a q _ h; cases h
  sweeps := by intro t a h; cases h

/-- What a commit is: a replay, a created write, or a sweep. -/
inductive Commit (sys : Sys Stmt Db Write Failure RequestReply RequestTransaction Key)
    (a : Active Stmt Write Failure RequestReply RequestTransaction Key) (r : RequestReply) : Prop
  | replayed (q : WriteRequest) (outcome : WriteOutcome) (row : RequestRecordEntity)
      (first : RequestIdentity) (body : WriteBody)
      (replays : List (RequestIdentity × WriteOutcome)) :
      a.label.request? = some q → r = .write outcome → a.writes = [] →
      requestsOf q.identity.key sys.history = (first, ⟨true, body⟩) :: replays →
      Recorded first body row → q.identity.answer row = .ok outcome → Commit sys a r
  | opened (q : WriteRequest) (outcome : WriteOutcome) :
      a.label.request? = some q → r = .write outcome →
      Opened q outcome sys.committed (engine.applyAll a.writes sys.committed) → Commit sys a r
  | swept (count : Nat) (rows : List RequestRecordEntity) :
      r = .swept count → a.writes = [.requests rows] →
      (∀ row ∈ rows, ∃ old, sys.committed.request? row.organisationId row.requestId = some old ∧
        old.state = .complete ∧ row = old.expire) → Commit sys a r

/-- **Every commit is one of the three.** -/
theorem Exact.commit {t : ℕ} {r : RequestReply} (hr : Requested start sys) (h : Exact start sys)
    (ha : sys.active t = some a) (hrest : a.rest = .pure r) : Commit sys a r := by
  obtain ⟨i, rest, writes, held⟩ := a
  obtain rfl : rest = .pure r := hrest
  cases hq : i.request? with
  | none =>
    cases h.sweeps t _ ha hq with
    | begun now days hrest hw => cases hrest
    | swept count rows hrest hw hrows =>
      cases hrest
      exact .swept count rows rfl hw hrows
  | some q =>
    cases h.phases t _ q trivial ha hq with
    | begun hrest | asking program hrest | reading hrest | missing hrest => cases hrest
    | answered row current first body replays hrest hw hf hcurrent haged hrecorded hfirst =>
      cases hanswer : q.identity.answer row with
      | error failure => rw [hanswer] at hrest; cases hrest
      | ok outcome =>
        rw [hanswer] at hrest
        cases hrest
        exact .replayed q outcome row first body replays hq rfl hw hfirst hrecorded hanswer
    | claimed hg ht hnone =>
      have hguard : i.guard = some q.guard := by simp [RequestTransaction.guard, hq]
      rcases (hr.inv.valid t _ q.guard ha hguard).exact_or with ⟨e, he⟩ | ⟨fp, hp, -⟩ | ⟨hn, -⟩
      · cases he
      · have hrun : engine.run (q.tx.map .write) sys.committed =
            .ok (r, engine.applyAll writes sys.committed) := by
          rw [← RequestTransaction.tx_of_request hq, hp.run_eq]; rfl
        obtain ⟨outcome, hran, rfl⟩ := Engine.run_map_ok.mp hrun
        obtain ⟨w, rfl⟩ := RequestTransaction.exists_write hq
        rcases w.run_ok hran with ⟨⟨row, hrow, -⟩, -⟩ | hopened
        · rw [hnone] at hrow; cases hrow
        · exact .opened _ outcome hq rfl hopened
      · exact absurd hg hn

/-- **What a commit does to the records**, and to their account. -/
theorem Commit.accounted {r : RequestReply} (h : Commit sys a r)
    (haccounted : ∀ o k, Accounted sys.committed sys.history o k) (o : Uuid) (k : String) :
    Accounted (engine.applyAll a.writes sys.committed) (sys.history ++ [(a.label, r)]) o k := by
  cases h with
  | replayed q outcome row first body replays hq hr hw hfirst hrecorded hanswer =>
    rw [hw, hr]
    exact Accounted.replay haccounted hq hfirst hrecorded hanswer o k
  | opened q outcome hq hr hopened =>
    rw [hr]
    exact Accounted.opened haccounted hq hopened o k
  | swept count rows hr hw hrows =>
    rw [hw, hr]
    exact Accounted.swept haccounted hrows o k

/-- A record that is there ages at most. -/
theorem Commit.aged {r : RequestReply} {o : Uuid} {k : String} {row : RequestRecordEntity}
    (h : Commit sys a r) (hrow : sys.committed.request? o k = some row) :
    ∃ row', (engine.applyAll a.writes sys.committed).request? o k = some row' ∧ Aged row row' := by
  cases h with
  | replayed q outcome row' first body replays hq hr hw =>
    rw [hw]
    exact ⟨row, hrow, Or.inl rfl⟩
  | opened q outcome hq hr hopened =>
    refine ⟨row, ?_, Or.inl rfl⟩
    rw [hopened.others o k, hrow]
    rintro ⟨⟩
    rw [hopened.new] at hrow
    cases hrow
  | swept count rows hr hw hrows =>
    rw [hw]
    rcases @Table.get_putAll_cases _ _ _ RequestRecordEntity.key (o, k) sys.committed.requests
      rows with he | ⟨row', hmem, hk, he⟩
    · exact ⟨row, he.trans hrow, Or.inl rfl⟩
    · obtain ⟨old, hold, hcomplete, hexpired⟩ := hrows row' hmem
      simp only [RequestRecordEntity.key, Prod.mk.injEq] at hk
      rw [hk.1, hk.2, hrow] at hold
      cases hold
      exact ⟨row', he, Or.inr ⟨hcomplete, hexpired⟩⟩

/-- **Every step keeps requests where requests can be.** -/
theorem Phases.step {among : ℕ → WriteRequest → Prop} (hr : Requested start sys)
    (he : Exact start sys) (h : Phases start floor among sys)
    (hfloor : ∀ t q, among t q → ∀ row, sys.committed.request? q.identity.organisationId
      q.identity.requestId = some row → floor row)
    (hs : Step engine locks RequestTransaction.tx sys sys') : Phases start floor among sys' := by
  cases hs with
  | begin t i hnone =>
    intro u a q hamong hu hq
    rcases update_active hu with ⟨rfl, he⟩ | ⟨-, hu⟩
    · cases he
      exact .begun (RequestTransaction.tx_of_request hq) rfl
    · exact (h u a q hamong hu hq).stable (fun row hrow => ⟨row, hrow, Or.inl rfl⟩)
        (fun _ => rfl) ⟨[], by simp⟩
  | exec t a s k b ws ha hrest hx hfree =>
    intro u a' q hamong hu hq
    rcases update_active hu with ⟨rfl, he'⟩ | ⟨-, hu⟩
    · cases he'
      obtain ⟨w, rfl⟩ := RequestTransaction.exists_write hq
      exact ((h u a _ hamong ha hq).exec hrest (Stmt.exec_of_send hx) (he.accounted _ _)
        (hfloor u _ hamong) hr.program?_none w.throws_proceed).stable
          (fun row hrow => ⟨row, hrow, Or.inl rfl⟩) (fun _ => rfl) ⟨[], by simp⟩
    · exact (h u a' q hamong hu hq).stable (fun row hrow => ⟨row, hrow, Or.inl rfl⟩)
        (fun _ => rfl) ⟨[], by simp⟩
  | abort t a ha =>
    intro u a' q hamong hu hq
    obtain ⟨-, hu⟩ := finish_active hu
    exact (h u a' q hamong hu hq).stable (fun row hrow => ⟨row, hrow, Or.inl rfl⟩)
      (fun _ => rfl) ⟨[], by simp⟩
  | commit t a r ha hrest =>
    intro u a' q hamong hu hq
    obtain ⟨hne, hu⟩ := finish_active hu
    exact (h u a' q hamong hu hq).stable (fun row hrow => (he.commit hr ha hrest).aged hrow)
      (fun hheld => hr.frame hne ha hu hheld) ⟨_, rfl⟩

/-- **Every step keeps the invariant.** -/
theorem Exact.step (hstart : start.requests = []) (hr : Requested start sys)
    (h : Exact start sys) (hs : Step engine locks RequestTransaction.tx sys sys') :
    Exact start sys' := by
  have hphases := h.phases.step hr h (fun _ _ _ _ _ => trivial) hs
  cases hs with
  | begin t i hnone =>
    refine ⟨h.accounted, hphases, fun u a hu hq => ?_⟩
    rcases update_active hu with ⟨rfl, he⟩ | ⟨-, hu⟩
    · cases he
      obtain ⟨now, days, rfl⟩ := RequestTransaction.sweep_of_none hq
      exact .begun now days rfl rfl
    · exact (h.sweeps u a hu hq).stable fun _ _ _ _ _ => rfl
  | exec t a s k b ws ha hrest hx hfree =>
    refine ⟨h.accounted, hphases, fun u a' hu hq => ?_⟩
    rcases update_active hu with ⟨rfl, he⟩ | ⟨-, hu⟩
    · cases he
      exact SweepPhase.stable ((h.sweeps u a ha hq).exec hrest (Stmt.exec_of_send hx)
        (hr.keys_nodup hstart)) fun _ _ _ _ _ => rfl
    · exact (h.sweeps u a' hu hq).stable fun _ _ _ _ _ => rfl
  | abort t a ha =>
    refine ⟨h.accounted, hphases, fun u a' hu hq => ?_⟩
    obtain ⟨-, hu⟩ := finish_active hu
    exact (h.sweeps u a' hu hq).stable fun _ _ _ _ _ => rfl
  | commit t a r ha hrest =>
    refine ⟨(h.commit hr ha hrest).accounted h.accounted, hphases, fun u a' hu hq => ?_⟩
    obtain ⟨hne, hu⟩ := finish_active hu
    exact (h.sweeps u a' hu hq).stable fun w hw o r hk =>
      hr.frame hne ha hu (hr.inv.locked u a' hu w hw _ hk)

/-- **The invariant holds in every interleaving.** -/
theorem Requested.exact (hstart : start.requests = []) (h : Requested start sys) :
    Exact start sys :=
  h.induct (Exact.begun hstart) fun _ _ hr hi hs => hi.step hstart hr hs

/-! ## Later requests -/

/-- **A record ages at most**, whatever commits. -/
theorem Requested.aged {o : Uuid} {k : String} {row : RequestRecordEntity}
    (hstart : start.requests = []) (h : Requested start sys)
    (hs : Steps engine locks RequestTransaction.tx sys sys')
    (hrow : sys.committed.request? o k = some row) :
    ∃ row', sys'.committed.request? o k = some row' ∧ Aged row row' := by
  induction hs with
  | refl => exact ⟨row, hrow, Or.inl rfl⟩
  | tail hs hstep ih =>
    obtain ⟨row', hrow', haged⟩ := ih
    have hr : Requested start _ := h.trans hs
    cases hstep with
    | begin | exec | abort => exact ⟨row', hrow', haged⟩
    | commit t a r ha hrest =>
      obtain ⟨row'', hrow'', haged'⟩ := ((hr.exact hstart).commit hr ha hrest).aged hrow'
      exact ⟨row'', hrow'', haged.trans haged'⟩

/-- A request of a recorded key that began after the record was committed
sees a record aged from it. -/
theorem Requested.phases_later {o : Uuid} {k : String} {row : RequestRecordEntity}
    (hstart : start.requests = []) (h : Requested start sys)
    (hs : Steps engine locks RequestTransaction.tx sys sys')
    (hrow : sys.committed.request? o k = some row) :
    Phases start (Aged row) (fun t q => sys.active t = none ∧ q.identity.key = (o, k)) sys' := by
  induction hs with
  | refl =>
    intro t a q hamong ha
    rw [hamong.1] at ha
    cases ha
  | tail hs hstep ih =>
    have hr : Requested start _ := h.trans hs
    refine ih.step hr (hr.exact hstart) (fun t q hamong row' hrow' => ?_) hstep
    obtain ⟨row'', hrow'', haged⟩ := h.aged hstart hs hrow
    have hkey := hamong.2
    simp only [RequestIdentity.key, Prod.mk.injEq] at hkey
    rw [hkey.1, hkey.2, hrow''] at hrow'
    cases hrow'
    exact haged

omit [Sha256] in
theorem answerTree_injective {x y : Except Failure WriteOutcome} (h : answerTree x = answerTree y) :
    x = y := by
  cases x <;> cases y <;> cases h <;> rfl

omit [Sha256] in
theorem laterAnswer_ne_inFlight {first identity : RequestIdentity} {body : WriteBody}
    {expired : Bool} {details : List (String × String)} :
    laterAnswer first body identity expired ≠ .error (.refusal .requestInFlight details) := by
  unfold laterAnswer
  cases expired <;> split <;> simp

/-- A request whose key has a record writes nothing. -/
theorem Phase.writes_nil {row : RequestRecordEntity} (h : Phase start floor q sys a)
    (hrow : sys.committed.request? q.identity.organisationId q.identity.requestId = some row) :
    a.writes = [] := by
  cases h with
  | begun _ hw | asking _ _ hw | reading _ hw | answered _ _ _ _ _ _ hw | missing _ hw => exact hw
  | claimed _ _ hnone => rw [hnone] at hrow; cases hrow

/-- What a recorded request of a key, among those that asked since the
record was `row`, is answered. -/
theorem Phase.answer {row row' : RequestRecordEntity} {first : RequestIdentity} {body : WriteBody}
    {answer : Except Failure WriteOutcome} {replays : List (RequestIdentity × WriteOutcome)}
    (h : Phase start (Aged row) q sys a) (hrest : a.rest = answerTree answer)
    (hrow : sys.committed.request? q.identity.organisationId q.identity.requestId = some row')
    (hfirst : requestsOf q.identity.key sys.history = (first, ⟨true, body⟩) :: replays) :
    answer = .error (.programNotFound q.programId) ∧
        start.program? (Uuid.ofText q.programId) = none ∨
      ∃ expired, answer = laterAnswer first body q.identity expired ∧
        (row.state = .expired → expired = true) ∧ (row'.state = .complete → expired = false) := by
  cases h with
  | begun hr | asking program hr | reading hr =>
    rw [hr] at hrest
    cases answer <;> cases hrest
  | answered asked current first' body' replays' hr hw hf hcurrent haged hrecorded hfirst' =>
    rw [hr] at hrest
    rw [hrow] at hcurrent
    cases hcurrent
    rw [hfirst] at hfirst'
    simp only [List.cons.injEq, Prod.mk.injEq, WriteOutcome.mk.injEq, true_and] at hfirst'
    obtain ⟨⟨rfl, rfl⟩, rfl⟩ := hfirst'
    refine Or.inr ⟨decide (asked.state = .expired), ?_, fun he => ?_, fun hc => ?_⟩
    · rw [← hrecorded.answer, answerTree_injective hrest]
    · simpa using hf.expired he
    · rcases haged with rfl | ⟨ha, he⟩
      · simp [hc]
      · rw [he] at hc; cases hc
  | missing hr hw hm =>
    rw [hr] at hrest
    cases answer with
    | ok outcome => cases hrest
    | error failure => cases hrest; exact Or.inl ⟨rfl, hm⟩
  | claimed hg ht hnone => rw [hnone] at hrow; cases hrow

/-- A commit that did not create leaves the committed state as it was. -/
theorem Requested.unchanged {t : ℕ} {outcome : WriteOutcome} (hstart : start.requests = [])
    (h : Requested start sys) (ha : sys.active t = some a) (hrest : a.rest = .pure (.write outcome))
    (hcreated : outcome.created = false) : sys.view engine a = sys.committed := by
  cases (h.exact hstart).commit h ha hrest with
  | replayed q outcome row first body replays hq hr hw => rw [Sys.view, hw, Engine.applyAll_nil]
  | opened q outcome hq hr hopened =>
    cases hr
    rw [hopened.created] at hcreated
    cases hcreated
  | swept count rows hr => cases hr

/-- No record is pending. -/
theorem Requested.settled {row : RequestRecordEntity} (hstart : start.requests = [])
    (h : Requested start sys) (hrow : row ∈ sys.committed.requests) : row.state ≠ .pending := by
  have hread : sys.committed.request? row.organisationId row.requestId = some row :=
    Table.get_of_mem (h.keys_nodup hstart) hrow
  have hor := (h.exact hstart).accounted row.organisationId row.requestId
  rw [Accounted, hread] at hor
  obtain ⟨first, body, hrecorded, -⟩ := hor
  rcases hrecorded.state with ⟨hs, -⟩ | ⟨hs, -⟩ <;> simp [hs]

/-- No request is answered that it is in flight. -/
theorem Requested.not_inFlight {t : ℕ} {details : List (String × String)}
    (hstart : start.requests = []) (h : Requested start sys) (ha : sys.active t = some a) :
    a.rest ≠ .throw (.refusal .requestInFlight details) := by
  intro hrest
  cases hq : a.label.request? with
  | none =>
    cases (h.exact hstart).sweeps t a ha hq with
    | begun now days hr | swept count rows hr => rw [hr] at hrest; cases hrest
  | some q =>
    cases (h.exact hstart).phases t a q trivial ha hq with
    | begun hr | asking program hr | reading hr | missing hr => rw [hr] at hrest; cases hrest
    | answered row current first body replays hr hw hf hcurrent haged hrecorded =>
      rw [hr] at hrest
      have hanswer := @answerTree_injective _ (.error (.refusal .requestInFlight details)) hrest
      rw [hrecorded.answer] at hanswer
      exact laterAnswer_ne_inFlight hanswer
    | claimed hg ht =>
      rw [hrest] at ht
      exact ht details rfl

/-- A key with no commits is there to be used, where the database can hold it. -/
theorem Requested.usable {program : ProgramEntity} (hstart : start.requests = [])
    (h : Requested start sys) (hid : storableText q.identity.requestId = true)
    (hprogram : sys.committed.program? (Uuid.ofText q.programId) = some program)
    (horganisation : sys.committed.organisations.contains q.identity.organisationId = true)
    (hnone : requestsOf q.identity.key sys.history = []) :
    engine.run q.tx sys.committed =
      engine.run (q.proceed program)
        (sys.committed.apply (.requests [q.identity.pending q.now])) := by
  have hor := (h.exact hstart).accounted q.identity.organisationId q.identity.requestId
  rw [WriteRequest.tx, withProgramLock, run_withProgramLockOr, hprogram]
  dsimp only
  rw [run_withIdempotency hid]
  cases hrow : sys.committed.request? q.identity.organisationId q.identity.requestId with
  | none => simp only [horganisation, if_true]
  | some row =>
    rw [Accounted, hrow] at hor
    obtain ⟨first, body, -, replays, hfirst, -⟩ := hor
    rw [RequestIdentity.key, hfirst] at hnone
    cases hnone

/-- **Exactly once for every key.** -/
structure ExactlyOnce (start : Db)
    (sys : Sys Stmt Db Write Failure RequestReply RequestTransaction Key) : Prop where
  /-- A key has one record if it has commits, of which the first created and
  the others were answered with its body, and none otherwise. -/
  once : ∀ o r, Accounted sys.committed sys.history o r
  /-- A commit that did not create leaves the committed state as it was. -/
  unchanged : ∀ t a outcome, sys.active t = some a → a.rest = .pure (.write outcome) →
    outcome.created = false → sys.view engine a = sys.committed
  /-- No record is pending. -/
  settled : ∀ row ∈ sys.committed.requests, row.state ≠ .pending
  /-- No request is answered that it is in flight. -/
  answered : ∀ t a details, sys.active t = some a →
    a.rest ≠ .throw (.refusal .requestInFlight details)
  /-- A key with no commits is there to be used, whatever was refused, where
  the database can hold it. -/
  usable : ∀ i q program, RequestTransaction.request? i = some q →
    storableText q.identity.requestId = true →
    sys.committed.program? (Uuid.ofText q.programId) = some program →
    sys.committed.organisations.contains q.identity.organisationId = true →
    requestsOf q.identity.key sys.history = [] →
    engine.run q.tx sys.committed =
      engine.run (q.proceed program) (sys.committed.apply (.requests [q.identity.pending q.now]))
  /-- A request of a key with a record that begins later writes nothing, and
  if its program exists is answered as the record was when it asked: between
  now, when it began, and then. -/
  later : ∀ o r row, sys.committed.request? o r = some row →
    ∃ first body, (first, ⟨true, body⟩) ∈ requestsOf (o, r) sys.history ∧
      ∀ sys', Steps engine locks RequestTransaction.tx sys sys' →
        ∃ row', sys'.committed.request? o r = some row' ∧ Aged row row' ∧
          ∀ t a q, sys.active t = none → sys'.active t = some a → a.label.request? = some q →
            q.identity.key = (o, r) → a.writes = [] ∧
              ∀ answer, a.rest = answerTree answer →
                answer = .error (.programNotFound q.programId) ∧
                    start.program? (Uuid.ofText q.programId) = none ∨
                  ∃ expired, answer = laterAnswer first body q.identity expired ∧
                    (row.state = .expired → expired = true) ∧
                    (row'.state = .complete → expired = false)

/-- **Exactly once for every key**, in every interleaving of requests and
sweeps from a database without records. -/
theorem exactly_once (hstart : start.requests = []) (h : Requested start sys) :
    ExactlyOnce start sys where
  once := (h.exact hstart).accounted
  unchanged _ _ _ ha hrest hcreated := h.unchanged hstart ha hrest hcreated
  settled _ hrow := h.settled hstart hrow
  answered _ _ _ ha := h.not_inFlight hstart ha
  usable _ _ _ _ hid hprogram horganisation hnone :=
    h.usable hstart hid hprogram horganisation hnone
  later := by
    intro o r row hrow
    have hor := (h.exact hstart).accounted o r
    rw [Accounted, hrow] at hor
    obtain ⟨first, body, -, replays, hfirst, -⟩ := hor
    refine ⟨first, body, by simp [hfirst], fun sys' hs => ?_⟩
    obtain ⟨row', hrow', haged⟩ := h.aged hstart hs hrow
    obtain ⟨history, hhistory⟩ := hs.history
    refine ⟨row', hrow', haged, fun t a q hidle ha hq hkey => ?_⟩
    have hphase := h.phases_later hstart hs hrow t a q ⟨hidle, hkey⟩ ha hq
    have hfirst' : requestsOf q.identity.key sys'.history =
        (first, ⟨true, body⟩) :: (replays ++ requestsOf q.identity.key history) := by
      rw [hhistory, requestsOf_append, hkey, hfirst, List.cons_append]
    obtain ⟨rfl, rfl⟩ := Prod.mk.inj hkey
    exact ⟨hphase.writes_nil hrow', fun answer hrest => hphase.answer hrest hrow' hfirst'⟩

end InvoiceReservation

namespace InvoiceReservation

open Transactions

attribute [local instance] trafficSha256

/-- A reserve and its retry. -/
def retriedReserve : List RequestTransaction :=
  [.reserve (callAt 1) (reserveCommand "req-00001" "INV-1" 100),
    .reserve (callAt 2) (reserveCommand "req-00001" "INV-1" 100)]

theorem exactly_once_retriedReserve : ∃ sys, Requested seeded sys ∧
    sys.history.map Prod.fst = retriedReserve ∧ ExactlyOnce seeded sys := by
  obtain ⟨sys, hreached, hhistory⟩ : ∃ sys, Requested seeded sys ∧
      sys.history.map Prod.fst = retriedReserve := exists_reachable <| by
        rw [seeded_eq]
        decide +kernel
  exact ⟨sys, hreached, hhistory, exactly_once (by rw [seeded_eq]; rfl) hreached⟩

end InvoiceReservation
