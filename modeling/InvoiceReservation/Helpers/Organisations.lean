import InvoiceReservation.Common.Observer
import InvoiceReservation.Helpers.Advance
import InvoiceReservation.Helpers.Requests
import InvoiceReservation.Helpers.Runs
import InvoiceReservation.Model.Api
import Mathlib.Tactic.IntervalCases
/-!
# What belongs to an organisation

Its programs with what is filed under them, and its request records. A
write of one of its programs asks for no more and changes no more, which
makes the organisation an observer of the database.
-/

namespace InvoiceReservation

open Transactions

/-! ## The text of a UUID -/

/-- Hex digits are read back as the number they are of. -/
theorem foldl_toDigits {f : Uuid → Char → Uuid}
    (hf : ∀ acc d, d < 16 → f acc (Nat.digitChar d) = acc * 16 + BitVec.ofNat 128 d) (n : ℕ) :
    (Nat.toDigits 16 n).foldl f 0 = BitVec.ofNat 128 n := by
  induction n using Nat.strong_induction_on with
  | _ n ih =>
    by_cases hn : n < 16
    · rw [Nat.toDigits_of_lt_base hn, List.foldl_cons, List.foldl_nil, hf 0 n hn]
      simp
    · have hlast : n % 16 < 16 := by omega
      rw [Nat.toDigits_of_base_le (by omega) (by omega), List.foldl_append, ih (n / 16) (by omega),
        List.foldl_cons, List.foldl_nil, hf _ _ hlast]
      calc BitVec.ofNat 128 (n / 16) * 16 + BitVec.ofNat 128 (n % 16)
        _ = BitVec.ofNat 128 (n / 16 * 16 + n % 16) := by
          rw [BitVec.ofNat_add, BitVec.ofNat_mul]
          rfl
        _ = BitVec.ofNat 128 n := by rw [Nat.div_add_mod']

/-- Dashes are passed over. -/
theorem foldl_dashes {f : Uuid → Char → Uuid} (hf : ∀ acc, f acc '-' = acc) (cs : List Char)
    (acc : Uuid) :
    (cs.take 8 ++ '-' :: (cs.drop 8).take 4 ++ '-' :: (cs.drop 12).take 4 ++
      '-' :: (cs.drop 16).take 4 ++ '-' :: cs.drop 20).foldl f acc = cs.foldl f acc := by
  have hsplit : cs = cs.take 8 ++ ((cs.drop 8).take 4 ++ ((cs.drop 12).take 4 ++
      ((cs.drop 16).take 4 ++ cs.drop 20))) := by
    rw [← List.drop_drop (i := 4) (j := 16), List.take_append_drop,
      ← List.drop_drop (i := 4) (j := 12), List.take_append_drop,
      ← List.drop_drop (i := 4) (j := 8), List.take_append_drop, List.take_append_drop]
  conv_rhs => rw [hsplit]
  simp only [List.foldl_append, List.foldl_cons, hf]

/-- **A UUID is read back from its text.** -/
theorem Uuid.ofText_text (id : Uuid) : Uuid.ofText id.text = id := by
  unfold Uuid.ofText Uuid.text
  rw [String.toList_ofList, foldl_dashes fun acc => rfl, List.foldl_append]
  have hzeros (k : ℕ) : (List.replicate k '0').foldl (fun (acc : Uuid) c =>
      if '0' ≤ c && c ≤ '9' then acc * 16 + BitVec.ofNat 128 (c.toNat - 48)
      else if 'a' ≤ c && c ≤ 'f' then acc * 16 + BitVec.ofNat 128 (c.toNat - 87)
      else if 'A' ≤ c && c ≤ 'F' then acc * 16 + BitVec.ofNat 128 (c.toNat - 55)
      else acc) 0 = 0 := by
    induction k with
    | zero => rfl
    | succ k ih => exact ih
  rw [hzeros, foldl_toDigits fun acc d hd => ?_]
  · simp
  · interval_cases d <;> rfl

/-! ## The rows of an organisation -/

/-- A program, where it is an organisation's. -/
def Db.programOf? (db : Db) (o p : Uuid) : Option ProgramEntity :=
  (db.program? p).filter (·.organisationId = o)

/-- Whether a program is an organisation's. -/
def Db.owns (db : Db) (o p : Uuid) : Bool := (db.programOf? o p).isSome

/-- A program's acknowledgements. -/
def Db.acknowledgementsOf (db : Db) (p : Uuid) : List SnapshotAcknowledgementEntity :=
  db.acknowledgements.filter (·.programId = p)

/-- Two databases that agree on what is an organisation's: on its row, its
programs with their reservations, ledger entries and acknowledgements, and
its request records. Nothing else is said of them. -/
structure Db.Agree (o : Uuid) (db db' : Db) : Prop where
  organisation : db.organisations.contains o = db'.organisations.contains o
  programs : ∀ p, db.programOf? o p = db'.programOf? o p
  reservations : ∀ p, db.owns o p = true → db.reservationsOf p = db'.reservationsOf p
  ledger : ∀ p, db.owns o p = true → db.ledgerOf p = db'.ledgerOf p
  acknowledgements : ∀ p, db.owns o p = true →
    db.acknowledgementsOf p = db'.acknowledgementsOf p
  requests : ∀ requestId, db.request? o requestId = db'.request? o requestId

/-- A database without an organisation's programs, reservations, ledger
entries and request records. -/
def Db.others (o : Uuid) (db : Db) : Db :=
  { db with
    programs := db.programs.filter (·.organisationId ≠ o)
    reservations := db.reservations.filter fun row => !db.owns o row.programId
    ledger := db.ledger.filter fun row => !db.owns o row.programId
    requests := db.requests.filter (·.organisationId ≠ o) }

variable {db db' c c' : Db} {o p q id : Uuid} {w : Write}

theorem Db.owns_iff : db.owns o p = true ↔
    ∃ program, db.program? p = some program ∧ program.organisationId = o := by
  simp [Db.owns, Db.programOf?, Option.isSome_filter, Option.any_eq_true]

theorem Db.Agree.owns (h : db.Agree o db') : db.owns o p = db'.owns o p := by
  rw [Db.owns, Db.owns, h.programs]

/-- A program of the organisation is the same in both. -/
theorem Db.Agree.program? (h : db.Agree o db') (hown : db.owns o p = true) :
    db.program? p = db'.program? p := by
  have hown' : db'.owns o p = true := h.owns ▸ hown
  obtain ⟨program, hp, horg⟩ := Db.owns_iff.mp hown
  obtain ⟨program', hp', horg'⟩ := Db.owns_iff.mp hown'
  have hsame := h.programs p
  simp only [Db.programOf?, hp, hp', Option.filter_some, horg, horg', decide_true, if_true] at hsame
  rw [hp, hp', hsame]

/-- A database without an organisation and its programs. -/
def Db.without (db : Db) (o : Uuid) : Db :=
  { db with
    organisations := db.organisations.filter (· ≠ o)
    programs := db.programs.filter (·.organisationId ≠ o) }

theorem Db.hasReservationId_without :
    (db.without o).hasReservationId id = db.hasReservationId id := rfl

/-- Whether another organisation has any program is nothing to one. -/
theorem Db.Agree.without {o' : Uuid} (hids : (db.programs.map (·.id)).Nodup) (hne : o ≠ o') :
    db.Agree o (db.without o') := by
  refine ⟨?_, fun p => ?_, fun _ _ => rfl, fun _ _ => rfl, fun _ _ => rfl, fun _ => rfl⟩
  · simp [Db.without, hne]
  · have hrows : (db.without o').program? p = (db.program? p).filter _ :=
      Table.get_filter hids
    unfold Db.programOf?
    rw [hrows]
    cases db.program? p with
    | none => rfl
    | some program =>
      by_cases horg : program.organisationId = o
      · simp [Option.filter_some, horg, hne]
      · by_cases hother : program.organisationId = o' <;>
          simp [Option.filter_some, horg, hother, hne.symm]

/-! ## A write of one program -/

/-- The statements of a write of a program, under an organisation, with the
id its reservation would have. -/
def Stmt.Within (o p id : Uuid) : {β : Type} → Stmt β → Prop
  | _, .lockProgram q => q = p
  | _, .insertRequest organisationId _ _ _ _ => organisationId = o
  | _, .selectRequest organisationId _ => organisationId = o
  | _, .completeRequest organisationId _ _ => organisationId = o
  | _, .selectDuplicate q _ => q = p
  | _, .insertReservation newId q _ _ _ _ _ _ _ => newId = id ∧ q = p
  | _, .lockReservation q _ => q = p
  | _, .releaseReservation q _ _ _ _ _ => q = p
  | _, .cancelReservation q _ _ _ _ => q = p
  | _, .insertLedger q _ _ => q = p
  | _, .updatePosition q _ _ _ => q = p
  | _, _ => False

/-- A row version of a program, or of a request of its organisation. -/
def Write.Within (o p : Uuid) : Write → Prop
  | .program row => row.id = p ∧ row.organisationId = o
  | .reservations rows => ∀ row ∈ rows, row.programId = p
  | .ledger rows => ∀ row ∈ rows, row.programId = p
  | .requests rows => ∀ row ∈ rows, row.organisationId = o
  | _ => False

/-- Two databases that a write of an organisation's program cannot tell
apart: they agree on what is the organisation's, and the new id is taken in
both or in neither. -/
structure Db.Alike (o p id : Uuid) (c c' : Db) : Prop where
  agree : c.Agree o c'
  own : c.owns o p = true
  newId : c.hasReservationId id = c'.hasReservationId id

/-- Whose a program is changes with none of these writes. -/
theorem owns_apply (hw : w.Within o p) (hown : c.owns o p = true) :
    (c.apply w).owns o q = c.owns o q := by
  cases w with
  | program row =>
    obtain ⟨rfl, horg⟩ := hw
    by_cases hq : row.id = q
    · subst hq
      rw [hown]
      exact Db.owns_iff.mpr ⟨row, by simp, horg⟩
    · simp [Db.owns, Db.programOf?, hq]
  | _ => rfl

/-- **A write of the organisation's program keeps two databases alike.** -/
theorem Db.Alike.apply (hw : w.Within o p) (h : Db.Alike o p id c c') :
    Db.Alike o p id (c.apply w) (c'.apply w) := by
  have hown' : c'.owns o p = true := h.agree.owns ▸ h.own
  have hown (q : Uuid) (hq : (c.apply w).owns o q = true) : c.owns o q = true :=
    owns_apply hw h.own ▸ hq
  refine ⟨⟨by simpa using h.agree.organisation, fun q => ?_, fun q hq => ?_, fun q hq => ?_,
    fun q hq => ?_, fun requestId => ?_⟩, (owns_apply hw h.own).trans h.own, ?_⟩
  · have hsame := h.agree.programs q
    cases w with
    | program row =>
      by_cases hid : row.id = q
      · simp [Db.programOf?, hid]
      · simpa [Db.programOf?, hid] using hsame
    | _ => exact hsame
  · have hsame := h.agree.reservations q (hown q hq)
    cases w <;> simp [hsame]
  · have hsame := h.agree.ledger q (hown q hq)
    cases w <;> simp [hsame]
  · have hsame := h.agree.acknowledgements q (hown q hq)
    cases w with
    | acknowledgement row => exact hw.elim
    | _ => exact hsame
  · have hsame := h.agree.requests requestId
    cases w with
    | requests rows => exact Table.get_putAll_congr hsame
    | _ => exact hsame
  · have hsame := h.newId
    cases w <;> simp_all [hasReservationId_apply]

/-- A statement of the write answers and writes the same on both. -/
theorem Stmt.Within.exec_congr {β : Type} {s : Stmt β} (hs : s.Within o p id)
    (h : Db.Alike o p id c c') : s.exec c = s.exec c' := by
  have hprogram := h.agree.program? h.own
  have hreservations := h.agree.reservations p h.own
  have hledger := h.agree.ledger p h.own
  have horganisation := h.agree.organisation
  have hrequests := h.agree.requests
  have hnewId := h.newId
  cases s <;> simp only [Stmt.Within] at hs
  case insertReservation => obtain ⟨rfl, rfl⟩ := hs; simp_all [Stmt.exec, Db.reservationsFor]
  all_goals subst hs; simp_all [Stmt.exec, Db.reservationsFor]

/-- New versions of a program's rows are its rows. -/
theorem within_rewrite {invoiceId : String}
    {f : InvoiceReservationEntity → InvoiceReservationEntity}
    (hf : ∀ row, (f row).programId = row.programId) :
    ∀ w ∈ [Write.reservations ((c.reservationsFor p invoiceId).map f)], w.Within o p := by
  intro w hw
  obtain rfl := List.mem_singleton.mp hw
  intro row hrow
  obtain ⟨old, hold, rfl⟩ := List.mem_map.mp hrow
  rw [hf, (Db.mem_reservationsOf.mp (Db.mem_reservationsFor.mp hold).1).2]

/-- **What a statement of the write writes is the organisation's.** -/
theorem Stmt.Within.exec_own {β : Type} {s : Stmt β} (hs : s.Within o p id)
    (hown : c.owns o p = true) {b : β} {ws : List Write} (hx : s.exec c = .ok (b, ws)) :
    ∀ w ∈ ws, w.Within o p := by
  obtain ⟨program, hp, horg⟩ := Db.owns_iff.mp hown
  cases s <;> simp only [Stmt.Within] at hs
  case insertReservation =>
    obtain ⟨rfl, rfl⟩ := hs
    simp only [Stmt.exec, guarded_ok, Prod.mk.injEq] at hx
    obtain ⟨-, -, rfl⟩ := hx
    simp [Write.Within, Stmt.newReservation]
  all_goals subst hs
  case insertRequest =>
    simp only [Stmt.exec] at hx
    split at hx
    · cases hx; simp
    · simp only [guarded_ok, Prod.mk.injEq] at hx
      obtain ⟨-, -, rfl⟩ := hx
      simp [Write.Within]
  case completeRequest =>
    cases hx
    intro w hw
    obtain rfl := List.mem_singleton.mp hw
    intro row hrow
    obtain ⟨found, hfound, rfl⟩ := List.mem_map.mp hrow
    have hkey := (Table.get_eq_some (Option.mem_toList.mp hfound)).2
    exact congrArg (·.1) hkey
  case releaseReservation =>
    simp only [Stmt.exec, Stmt.updateReservations, guarded_ok, Prod.mk.injEq] at hx
    obtain ⟨-, -, rfl⟩ := hx
    exact within_rewrite fun _ => rfl
  case cancelReservation =>
    simp only [Stmt.exec, Stmt.updateReservations, guarded_ok, Prod.mk.injEq] at hx
    obtain ⟨-, -, rfl⟩ := hx
    exact within_rewrite fun _ => rfl
  case insertLedger =>
    simp only [Stmt.exec, guarded_ok, Prod.mk.injEq] at hx
    obtain ⟨-, -, rfl⟩ := hx
    simp [Write.Within, Stmt.ledgerRows]
  case updatePosition =>
    simp only [Stmt.exec, hp, guarded_ok, Prod.mk.injEq] at hx
    obtain ⟨-, -, rfl⟩ := hx
    simp [Write.Within, Stmt.withPosition, Db.id_of_program? hp, horg]
  all_goals cases hx; simp

/-- An organisation, as an observer of the writes of one of its programs. -/
def organisation (o p id : Uuid) : Observer engine where
  alike := Db.Alike o p id
  admits := Stmt.Within o p id
  own := Write.Within o p
  exec_congr hs h := Stmt.send_congr (hs.exec_congr h)
  exec_own hs h hx := hs.exec_own h.own (Stmt.exec_of_send hx)
  apply hw h := h.apply hw

/-- **A write of the organisation's program leaves the others alone.** -/
theorem others_apply (hw : w.Within o p) (hown : c.owns o p = true) :
    (c.apply w).others o = c.others o := by
  have howns : (c.apply w).owns o = c.owns o := funext fun q => owns_apply hw hown
  unfold Db.others
  rw [howns]
  cases w with
  | program row =>
    obtain ⟨rfl, horg⟩ := hw
    obtain ⟨old, hold, hold'⟩ := Db.owns_iff.mp hown
    have hprograms := @Table.filter_put_unseen _ _ _ (·.id) row c.programs
      (fun x => x.organisationId ≠ o) (by simp [horg]) fun x hx => by
        obtain rfl : x = old := Option.some.inj (hx.symm.trans hold)
        simp [hold']
    simp only [Db.apply, hprograms]
  | reservations rows =>
    have hrows : rows.filter (fun row => !c.owns o row.programId) = [] :=
      List.filter_eq_nil_iff.mpr fun row hrow => by simp [hw row hrow, hown]
    have hreservations := @Table.filter_putAll _ _ _ InvoiceReservationEntity.key c.reservations
      (fun k => !c.owns o k.1) rows
    rw [show rows.filter (fun x => !c.owns o x.key.1) = [] from hrows, Table.putAll_nil]
      at hreservations
    exact congrArg (fun reservations => { c.others o with reservations := reservations })
      hreservations
  | ledger rows =>
    have hrows : rows.filter (fun row => !c.owns o row.programId) = [] :=
      List.filter_eq_nil_iff.mpr fun row hrow => by simp [hw row hrow, hown]
    simp only [Db.apply, List.filter_append, hrows, List.append_nil]
  | requests rows =>
    have hrows : rows.filter (fun row => decide (row.organisationId ≠ o)) = [] :=
      List.filter_eq_nil_iff.mpr fun row hrow => by simp [hw row hrow]
    have hrequests := @Table.filter_putAll _ _ _ RequestRecordEntity.key c.requests
      (fun k => decide (k.1 ≠ o)) rows
    rw [show rows.filter (fun x => decide (x.key.1 ≠ o)) = [] from hrows, Table.putAll_nil]
      at hrequests
    exact congrArg (fun requests => { c.others o with requests := requests }) hrequests
  | _ => exact hw.elim

/-! ## The three writes -/

/-- A program that is locked is the organisation's, and what its writer does
is confined. -/
theorem sameRun_withProgramLock {α : Type} {programId : String}
    {fn fn' : ProgramEntity → Transaction α} (h : Db.Alike o (Uuid.ofText programId) id c c')
    (hfn : ∀ program, program.id = Uuid.ofText programId → fn program = fn' program)
    (hconfined : ∀ program, (organisation o (Uuid.ofText programId) id).Confined (fn program)) :
    (organisation o (Uuid.ofText programId) id).SameRun c c'
      (engine.run (withProgramLock programId fn) c)
      (engine.run (withProgramLock programId fn') c') := by
  obtain ⟨program, hp, -⟩ := Db.owns_iff.mp h.own
  have hfound : c'.program? (Uuid.ofText programId) = some program :=
    (h.agree.program? h.own).symm.trans hp
  unfold withProgramLock
  rw [run_withProgramLockOr, run_withProgramLockOr, hp, hfound]
  dsimp only
  rw [← hfn program (Db.id_of_program? hp)]
  exact (hconfined program).run h

theorem confined_orTypeError {α : Type} {x : Except TypeError α} :
    (organisation o p id).Confined (orTypeError x) := by
  cases x <;> trivial

theorem confined_persistAdvance {programId : String} {result : AdvanceResult} {now : Timestamp}
    {flag : Bool} : (organisation o (Uuid.ofText programId) id).Confined
      (persistAdvance programId result now flag) := by
  unfold persistAdvance
  split
  · exact (Observer.confined_perform rfl).bind fun _ => Observer.confined_perform rfl
  · exact Observer.confined_perform rfl

theorem confined_withIdempotency {identity : RequestIdentity} {now : Timestamp}
    {proceed : Transaction WriteOutcome} (ho : identity.organisationId = o)
    (h : (organisation o p id).Confined proceed) :
    (organisation o p id).Confined (withIdempotency identity now proceed) := by
  rw [withIdempotency_eq]
  refine (Observer.confined_perform ho).bind fun inserted => ?_
  split
  · exact h
  · refine (Observer.confined_perform ho).bind fun found => ?_
    cases found with
    | none => trivial
    | some row =>
      unfold RequestIdentity.answered
      dsimp only
      split <;> trivial

/-- Two runtimes with one clock and one generated id, whose rates are the
same, and what was observed of a program. -/
structure Runtime.AgreeAt (p : Uuid) (rt rt' : Runtime) : Prop where
  now : rt.now = rt'.now
  generatedId : rt.generatedId = rt'.generatedId
  rateFor : rt.rateFor = rt'.rateFor
  newestObservedFor : rt.newestObservedFor p = rt'.newestObservedFor p

variable {rt rt' : Runtime} {program : ProgramEntity}

/-- They answer a write of the program with the same body. -/
theorem writeBody_congr (h : rt.AgreeAt program.id rt') {entries : List PendingLedgerEntry}
    {now : Timestamp} {row : InvoiceReservationEntity} :
    writeBody rt program (advancePosition program.toProgramPosition entries now).program row =
      writeBody rt' program (advancePosition program.toProgramPosition entries now).program
        row := by
  have hid := (@advances_advancePosition program.toProgramPosition entries now).id
  unfold writeBody
  rw [hid, h.now, h.newestObservedFor]

variable [Sha256]

theorem sameRun_reserve {command : ReserveCommand}
    (h : Db.Alike command.organisationId (Uuid.ofText command.programId) rt.generatedId c c')
    (hrt : rt.AgreeAt (Uuid.ofText command.programId) rt') :
    (organisation command.organisationId (Uuid.ofText command.programId) rt.generatedId).SameRun
      c c' (engine.run (reserve rt command) c) (engine.run (reserve rt' command) c') := by
  refine sameRun_withProgramLock h (fun program hid => ?_) fun program => ?_
  · rw [← hid] at hrt
    have haccept (reservedMinor : Int) (fx : Option FxRate) :
        acceptReservation rt command program reservedMinor fx =
          acceptReservation rt' command program reservedMinor fx := by
      simp only [acceptReservation, writeBody_congr hrt, hrt.now, hrt.generatedId]
    simp only [proceedReserve, resolveFx, hrt.now, hrt.rateFor, haccept]
  · refine confined_withIdempotency rfl ?_
    unfold proceedReserve
    refine (Observer.confined_perform rfl).bind fun duplicate => ?_
    split
    · trivial
    refine confined_orTypeError.bind fun fx => confined_orTypeError.bind fun decision => ?_
    cases decision with
    | refused _ _ => trivial
    | accepted reservedMinor fx =>
      have hinsert : (organisation command.organisationId (Uuid.ofText command.programId)
          rt.generatedId).admits (.insertReservation rt.generatedId (Uuid.ofText command.programId)
            command.invoiceText command.amountMinor command.currency program.currency reservedMinor
            fx rt.now) := ⟨rfl, rfl⟩
      exact (Observer.confined_perform hinsert).bind fun row =>
        confined_persistAdvance.bind fun _ => (Observer.confined_perform rfl).bind fun _ => trivial

theorem sameRun_release {command : ReleaseCommand}
    (h : Db.Alike command.organisationId (Uuid.ofText command.programId) rt.generatedId c c')
    (hrt : rt.AgreeAt (Uuid.ofText command.programId) rt') :
    (organisation command.organisationId (Uuid.ofText command.programId) rt.generatedId).SameRun
      c c' (engine.run (release rt command) c) (engine.run (release rt' command) c') := by
  refine sameRun_withProgramLock h (fun program hid => ?_) fun program => ?_
  · rw [← hid] at hrt
    have haccept (row : InvoiceReservationEntity) (applied : ReleaseDecision) :
        acceptRelease rt command program row applied =
          acceptRelease rt' command program row applied := by
      simp only [acceptRelease, writeBody_congr hrt, hrt.now]
    simp only [proceedRelease, hrt.now, haccept]
  · refine confined_withIdempotency rfl ?_
    unfold proceedRelease
    split
    · trivial
    refine (Observer.confined_perform rfl).bind fun found => ?_
    cases found with
    | none => trivial
    | some row =>
      refine confined_orTypeError.bind fun scaledRate =>
        confined_orTypeError.bind fun decision => ?_
      cases decision with
      | error _ => trivial
      | ok applied =>
        exact confined_persistAdvance.bind fun _ => (Observer.confined_perform rfl).bind fun _ =>
          (Observer.confined_perform rfl).bind fun _ => trivial

theorem sameRun_cancel {command : CancelCommand}
    (h : Db.Alike command.organisationId (Uuid.ofText command.programId) rt.generatedId c c')
    (hrt : rt.AgreeAt (Uuid.ofText command.programId) rt') :
    (organisation command.organisationId (Uuid.ofText command.programId) rt.generatedId).SameRun
      c c' (engine.run (cancel rt command) c) (engine.run (cancel rt' command) c') := by
  refine sameRun_withProgramLock h (fun program hid => ?_) fun program => ?_
  · rw [← hid] at hrt
    have haccept (row : InvoiceReservationEntity) (applied : CancelDecision) :
        acceptCancel rt command program row applied =
          acceptCancel rt' command program row applied := by
      simp only [acceptCancel, writeBody_congr hrt, hrt.now]
    simp only [proceedCancel, hrt.now, haccept]
  · refine confined_withIdempotency rfl ?_
    unfold proceedCancel
    split
    · trivial
    refine (Observer.confined_perform rfl).bind fun found => ?_
    cases found with
    | none => trivial
    | some row =>
      dsimp only
      split
      · trivial
      · exact confined_persistAdvance.bind fun _ => (Observer.confined_perform rfl).bind fun _ =>
          (Observer.confined_perform rfl).bind fun _ => trivial

end InvoiceReservation
