import InvoiceReservation.Common.Machine
import InvoiceReservation.Model.Rates
import InvoiceReservation.Model.Services
import Mathlib.Algebra.BigOperators.Group.Finset.Basic
import Mathlib.Data.Fintype.Basic
/-!
# The connection pool

Reserves of one program and the connections they hold. A reserve waits for
a connection of the pool, then with it for the program's row, and has both
to its end. Where the rate it needs is not cached it waits for a second
connection meanwhile. Who waits for a connection waits without a timeout,
and is served in turn.
-/

namespace InvoiceReservation

open Machines

/-- Where a reserve is. `asOf` is the instant it took when it had its
program's row. -/
inductive ReservePhase
  /-- Not issued yet. -/
  | new
  /-- Waiting for the connection of its transaction. -/
  | queued
  /-- With a connection, waiting for the program's row. -/
  | connected
  /-- With the row, before its rate is resolved. -/
  | locked (asOf : Timestamp)
  /-- In `rateFor`, waiting for a connection of the query's own. -/
  | awaitingRate (call : RateCall)
  /-- In `rateFor`, querying. -/
  | querying (call : RateCall)
  /-- With its rate resolved, or refused one. -/
  | priced
  /-- Committed or rolled back. -/
  | done

namespace ReservePhase

/-- The connections a reserve holds. -/
def connections : ReservePhase → Nat
  | new => 0
  | queued => 0
  | connected => 1
  | locked _ => 1
  | awaitingRate _ => 1
  | querying _ => 2
  | priced => 1
  | done => 0

/-- Whether a reserve has the program's row. -/
def holdsRow : ReservePhase → Bool
  | locked _ => true
  | awaitingRate _ => true
  | querying _ => true
  | priced => true
  | _ => false

/-- Whether a reserve waits for a connection. -/
def waits : ReservePhase → Bool
  | queued => true
  | awaitingRate _ => true
  | _ => false

/-- Whether a reserve has ended. -/
def finished : ReservePhase → Bool
  | done => true
  | _ => false

end ReservePhase

/-- A pool, the reserves that share it, their program and the rates. -/
structure PoolSetup (ι : Type) where
  size : Nat
  request : ι → ReserveCommand
  program : ProgramEntity
  rates : List FxRateRow

/-- The state of the reserves, those that wait for a connection in turn, the
rate cache and the clock. -/
structure PoolState (ι : Type) where
  phase : ι → ReservePhase
  pending : List ι
  cache : RateCache
  clock : Timestamp

/-- What can happen: the clock moves, or one reserve takes a step. -/
inductive PoolAction (ι : Type)
  /-- The reserve asks for a connection. -/
  | issue (i : ι)
  /-- The pool gives the first in turn a connection. -/
  | connect (i : ι)
  /-- The reserve has `SELECT … FOR UPDATE` answered. -/
  | lock (i : ι)
  /-- The reserve is replayed, or refused, before it needs a rate. -/
  | settle (i : ι)
  /-- The reserve needs no rate, or has it cached, or asks for a connection. -/
  | resolve (i : ι)
  /-- The rate query is answered, and its connection goes back. -/
  | answer (i : ι)
  /-- The reserve commits or rolls back. -/
  | finish (i : ι)
  | tick (elapsed : Nat)

/-- The reserve that takes a step. -/
def PoolAction.actor {ι : Type} : PoolAction ι → Option ι
  | issue i => some i
  | connect i => some i
  | lock i => some i
  | settle i => some i
  | resolve i => some i
  | answer i => some i
  | finish i => some i
  | tick _ => none

variable {ι : Type} [Fintype ι] [DecidableEq ι]

/-- The connections in use. -/
def PoolState.used (s : PoolState ι) : Nat := ∑ i, (s.phase i).connections

/-- A state with one reserve moved on. -/
def PoolState.move (s : PoolState ι) (i : ι) (phase : ReservePhase) : PoolState ι :=
  { s with phase := Function.update s.phase i phase }

/-- Some reserve has not ended. -/
def PoolState.Unfinished (s : PoolState ι) : Prop := ∃ i, (s.phase i).finished = false

namespace PoolSetup

variable (setup : PoolSetup ι)

/-- Whether a reserve is in another currency than its program. -/
def Foreign (i : ι) : Prop := (setup.request i).currency ≠ setup.program.currency

instance {i : ι} : Decidable (setup.Foreign i) :=
  inferInstanceAs (Decidable ((setup.request i).currency ≠ setup.program.currency))

/-- `rateFor`, as a reserve calls it. -/
def beginRateFor (s : PoolState ι) (i : ι) (asOf : Timestamp) : RateCall :=
  InvoiceReservation.beginRateFor s.cache (setup.request i).currency setup.program.currency asOf
    s.clock

/-- What an action leads to. -/
def step : PoolAction ι → PoolState ι → Option (PoolState ι)
  | .issue i, s =>
    match s.phase i with
    | .new => some { s.move i .queued with pending := s.pending ++ [i] }
    | _ => none
  | .connect i, s =>
    if s.pending.head? = some i ∧ s.used < setup.size then
      match s.phase i with
      | .queued => some { s.move i .connected with pending := s.pending.tail }
      | .awaitingRate call => some { s.move i (.querying call) with pending := s.pending.tail }
      | _ => none
    else none
  | .lock i, s =>
    match s.phase i with
    | .connected =>
      if ∀ j, (s.phase j).holdsRow = false then some (s.move i (.locked s.clock)) else none
    | _ => none
  | .settle i, s =>
    match s.phase i with
    | .locked _ => some (s.move i .done)
    | _ => none
  | .resolve i, s =>
    match s.phase i with
    | .locked asOf =>
      if setup.Foreign i then
        let call := setup.beginRateFor s i asOf
        match call.hit with
        | some _ => some (s.move i .priced)
        | none => some { s.move i (.awaitingRate call) with pending := s.pending ++ [i] }
      else some (s.move i .priced)
    | _ => none
  | .answer i, s =>
    match s.phase i with
    | .querying call =>
      some { s.move i .priced with cache := call.cacheAfter setup.rates s.cache }
    | _ => none
  | .finish i, s =>
    match s.phase i with
    | .priced => some (s.move i .done)
    | _ => none
  | .tick elapsed, s => some { s with clock := s.clock + elapsed }

/-- The pool as a machine, which starts with nothing issued and nothing cached. -/
def machine : Machine (PoolState ι) (PoolAction ι) where
  start s := (∀ i, s.phase i = .new) ∧ s.pending = [] ∧ ∀ key, s.cache key = none
  step := setup.step

/-- Some reserve can take a step. -/
def CanStep (s : PoolState ι) : Prop :=
  ∃ a : PoolAction ι, a.actor.isSome = true ∧ (setup.step a s).isSome = true

end PoolSetup

end InvoiceReservation
