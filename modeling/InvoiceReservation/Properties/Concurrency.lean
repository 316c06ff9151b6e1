import InvoiceReservation.Helpers.Changes
import InvoiceReservation.Helpers.Locking
import InvoiceReservation.Helpers.Policies
import InvoiceReservation.Model.Seed
/-!
# No overbooking under any interleaving

The five locked transactions, interleaved statement by statement, leave
what they leave one after another in commit order. So what a serial run
keeps is kept by every interleaving: a reserve that commits finds room
under the limit, and its invoice unreserved.
-/

namespace InvoiceReservation

open Transactions

variable [Sha256] {db db' : Db} {p : Uuid}

/-- The states that locked transactions can reach from a database. -/
abbrev Interleaved (db : Db) (sys : Sys Stmt Db Write Failure LockedReply LockedTransaction Key) :
    Prop :=
  Reachable engine locks LockedTransaction.tx db sys

/-- Locked transactions, one after another. -/
abbrev LockedTransaction.run (ts : List LockedTransaction) (db : Db) : Db :=
  serial engine LockedTransaction.tx ts db

variable {sys : Sys Stmt Db Write Failure LockedReply LockedTransaction Key}

omit [Sha256] in
theorem guard_isSome (t : LockedTransaction) : ∃ g, some t.guard = some g := ⟨_, rfl⟩

/-- Every locked transaction keeps to its guard. -/
theorem disciplined_of_guard (t : LockedTransaction) (g : Key) (hg : some t.guard = some g) :
    Disciplined keyed LockedReply.Idle g t.tx := by
  cases hg
  exact t.disciplined

/-- **An interleaving leaves what its committed transactions leave one
after another.** -/
theorem Interleaved.serializable (h : Interleaved db sys) :
    sys.committed = LockedTransaction.run (sys.history.map Prod.fst) db :=
  Reachable.serializable guard_isSome disciplined_of_guard h

/-- What a transaction committed with an effect answers, it answers in the
serial run. -/
theorem Interleaved.answer (h : Interleaved db sys)
    {pre post : List (LockedTransaction × LockedReply)}
    {t : LockedTransaction} {reply : LockedReply} (hh : sys.history = pre ++ (t, reply) :: post)
    (hidle : ¬ reply.Idle) :
    ∃ db', engine.run t.tx (LockedTransaction.run (pre.map Prod.fst) db) = .ok (reply, db') := by
  rcases Reachable.history_run guard_isSome disciplined_of_guard h hh with hrun | ⟨hq, -⟩
  · exact hrun
  · exact absurd hq hidle

/-- **What every change keeps, every interleaving keeps.** -/
theorem Interleaved.induct {P : Db → Prop} (hstep : ∀ c c', P c → Change c c' → P c')
    (hstart : P db) (h : Interleaved db sys) : P sys.committed := by
  rw [h.serializable]
  exact serial_induct (fun _ _ _ _ h => (LockedTransaction.change h).to_reflTransGen) hstep _ hstart

/-- The states a run leaves: operations one at a time, and interleavings of
locked transactions, in any order. -/
inductive Onward (db : Db) : Db → Prop
  | start : Onward db db
  | operation {c : Db} (op : Operation) : Onward db c → Onward db (engine.effect op.tx c)
  | interleaved {c : Db} {sys : Sys Stmt Db Write Failure LockedReply LockedTransaction Key} :
      Onward db c → Interleaved c sys → Onward db sys.committed

/-- **The run rule.** What every change keeps, every run keeps. -/
theorem Onward.induct {P : Db → Prop} (hstep : ∀ c c', P c → Change c c' → P c') (hstart : P db)
    (h : Onward db db') : P db' := by
  induction h with
  | start => exact hstart
  | operation op _ ih =>
    refine Engine.effect_induct ih fun r c' hr => ?_
    have hchanges := op.changes hr
    clear hr
    induction hchanges with
    | refl => exact ih
    | tail _ hc ih => exact hstep _ _ ih hc
  | interleaved _ hsys ih => exact hsys.induct hstep ih

theorem Onward.trans {db'' : Db} (h : Onward db db') (h' : Onward db' db'') : Onward db db'' := by
  induction h' with
  | start => exact h
  | operation op _ ih => exact .operation op ih
  | interleaved _ hsys ih => exact .interleaved ih hsys

/-- A run of operations. -/
theorem Onward.run (h : Onward db db') (ops : List Operation) :
    Onward db (Operation.run ops db') :=
  List.foldlRecOn ops (motive := Onward db) (fun c op => engine.effect op.tx c) h
    fun _ hc op _ => .operation op hc

/-! ## Reserves -/

/-- A reserve that created its reservation, in a serial run. -/
theorem reserve_created {rt : Runtime} {command : ReserveCommand} {outcome : WriteOutcome}
    (h : engine.run (LockedTransaction.reserve rt command).tx db = .ok (.write outcome, db'))
    (hcreated : outcome.created = true) :
    ∃ program reservedMinor fx, db.program? (Uuid.ofText command.programId) = some program ∧
      Reserved rt command db program reservedMinor fx outcome db' := by
  obtain ⟨outcome', h, he⟩ := Engine.run_map_ok.mp h
  cases he
  obtain ⟨program, hp, ⟨⟨row, -, hanswer⟩, -⟩ | ⟨reservedMinor, fx, hr⟩⟩ := reserve_cases h
  · simp [(answer_ok.mp hanswer).2.2.2.2] at hcreated
  · exact ⟨program, reservedMinor, fx, hp, hr⟩

/-- **A reserve leaves its program within its limit.** -/
theorem Reserved.within_limit {rt : Runtime} {command : ReserveCommand} {program : ProgramEntity}
    {reservedMinor : Int} {fx : Option FxRate} {outcome : WriteOutcome}
    (h : Reserved rt command db program reservedMinor fx outcome db') :
    ∃ after, db'.program? program.id = some after ∧
      after.localReservedMinor + after.treasuryReservedMinor ≤ after.creditLimitMinor := by
  obtain ⟨resolution, -, hdecision⟩ := h.resolved
  obtain ⟨-, -, hle⟩ := decideReservation_accepted hdecision
  refine ⟨Stmt.withPosition program (reservedAdvance rt command program reservedMinor).program
    rt.now, ?_, ?_⟩
  · rw [h.program?_after, if_pos rfl]
  · have hc := fun c => @advancePosition_component program.toProgramPosition
      [command.entry reservedMinor] rt.now c
    have hlocal := hc .local
    have htreasury := hc .treasury
    have hlimit := hc .limit
    simp only [ProgramPosition.component, componentSum_singleton, ReserveCommand.entry,
      reduceCtorEq, if_true, if_false, add_zero] at hlocal htreasury hlimit
    simp only [available, totalReserved] at hle
    simp only [Stmt.withPosition, reservedAdvance, ReserveCommand.entry]
    omega

/-- A reserve leaves its invoice reserved. -/
theorem Reserved.reservationsFor_ne_nil {rt : Runtime} {command : ReserveCommand}
    {program : ProgramEntity} {reservedMinor : Int} {fx : Option FxRate} {outcome : WriteOutcome}
    (h : Reserved rt command db program reservedMinor fx outcome db') :
    db'.reservationsFor program.id command.invoiceText ≠ [] := by
  have hmem : reservedRow rt command program reservedMinor fx ∈
      db'.reservationsFor program.id command.invoiceText := by
    refine Db.mem_reservationsFor.mpr ⟨?_, rfl⟩
    rw [h.reservationsOf_put]
    simp [reservedRow, Stmt.newReservation, Table.self_mem_put]
  exact List.ne_nil_of_mem hmem

/-- What is reserved stays reserved: rows are never removed. -/
theorem LockedTransaction.reservationsFor_mono {invoiceId : String} (ts : List LockedTransaction)
    (h : db.reservationsFor p invoiceId ≠ []) :
    (LockedTransaction.run ts db).reservationsFor p invoiceId ≠ [] := by
  refine List.foldlRecOn ts (motive := fun c => c.reservationsFor p invoiceId ≠ [])
    (fun c t => engine.effect t.tx c) h fun c hc t _ => ?_
  exact Engine.effect_mono (P := fun c : Db => c.reservationsFor p invoiceId ≠ [])
    (fun w c hc hnil => hc (Db.reservationsFor_apply_eq_nil.mp hnil).1) hc

/-- **No overbooking under any interleaving.** The committed state is that
of the committed transactions run in commit order. Right after a reserve
that created its reservation the program is within its limit, and no two
such reserves are of one program and invoice. -/
theorem no_overbooking (h : Interleaved db sys) :
    sys.committed = LockedTransaction.run (sys.history.map Prod.fst) db ∧
    (∀ pre rt command outcome post,
      sys.history = pre ++ (.reserve rt command, .write outcome) :: post → outcome.created = true →
        ∃ program, (LockedTransaction.run (pre.map Prod.fst ++ [.reserve rt command]) db).program?
            (Uuid.ofText command.programId) = some program ∧
          program.localReservedMinor + program.treasuryReservedMinor ≤ program.creditLimitMinor) ∧
    ∀ pre rt command outcome mid rt' command' outcome' post,
      sys.history = pre ++ (.reserve rt command, .write outcome) ::
        (mid ++ (.reserve rt' command', .write outcome') :: post) →
      outcome.created = true → outcome'.created = true →
        (Uuid.ofText command.programId, command.invoiceText) ≠
          (Uuid.ofText command'.programId, command'.invoiceText) := by
  refine ⟨h.serializable, ?_, ?_⟩
  · intro pre rt command outcome post hh hcreated
    obtain ⟨db', hrun⟩ := h.answer hh (by simp [LockedReply.Idle, hcreated])
    obtain ⟨program, reservedMinor, fx, hp, hr⟩ := reserve_created hrun hcreated
    obtain ⟨after, hafter, hle⟩ := hr.within_limit
    refine ⟨after, ?_, hle⟩
    rw [LockedTransaction.run, serial_append, ← Db.id_of_program? hp]
    change (engine.effect _ _).program? _ = _
    rw [Engine.effect_of_run_ok hrun, hafter]
  · intro pre rt command outcome mid rt' command' outcome' post hh hcreated hcreated' he
    obtain ⟨db₁, hrun⟩ := h.answer hh (by simp [LockedReply.Idle, hcreated])
    obtain ⟨program, reservedMinor, fx, hp, hr⟩ := reserve_created hrun hcreated
    rw [← List.cons_append, ← List.append_assoc] at hh
    obtain ⟨db₂, hrun'⟩ := h.answer hh (by simp [LockedReply.Idle, hcreated'])
    obtain ⟨program', reservedMinor', fx', hp', hr'⟩ := reserve_created hrun' hcreated'
    simp only [Prod.mk.injEq] at he
    -- the second reserve runs after the first, and finds the invoice unreserved
    have hfirst := hr.reservationsFor_ne_nil
    rw [Db.id_of_program? hp] at hfirst
    have hlater := LockedTransaction.reservationsFor_mono (mid.map Prod.fst) hfirst
    have hstate : LockedTransaction.run ((pre ++ (.reserve rt command, .write outcome) :: mid).map
        Prod.fst) db = LockedTransaction.run (mid.map Prod.fst) db₁ := by
      rw [LockedTransaction.run, List.map_append, serial_append, List.map_cons]
      change serial _ _ _ (engine.effect _ _) = _
      rw [Engine.effect_of_run_ok hrun]
    have hnew := hr'.newInvoice
    rw [hstate, Db.id_of_program? hp', ← he.1, ← he.2] at hnew
    exact hlater hnew

end InvoiceReservation

namespace InvoiceReservation

open Transactions

attribute [local instance] trafficSha256

/-- Two reserves of the first program. -/
def twoReserves : List LockedTransaction :=
  [.reserve (callAt 1) (reserveCommand "req-00001" "INV-1" 100),
    .reserve (callAt 2) (reserveCommand "req-00002" "INV-2" 100)]

theorem no_overbooking_twoReserves : ∃ sys, Interleaved seeded sys ∧
    sys.history.map Prod.fst = twoReserves ∧
    sys.committed = LockedTransaction.run (sys.history.map Prod.fst) seeded := by
  obtain ⟨sys, hreached, hhistory⟩ : ∃ sys, Interleaved seeded sys ∧
      sys.history.map Prod.fst = twoReserves := exists_reachable <| by
        rw [seeded_eq]
        decide +kernel
  exact ⟨sys, hreached, hhistory, (no_overbooking hreached).1⟩

end InvoiceReservation
