import InvoiceReservation.Model.Program
import Mathlib.Algebra.BigOperators.Group.List.Basic
import Mathlib.Algebra.Order.Group.Int
/-!
# What an advance does

`advancePosition` is a loop and a marker after it. `Advances` is what
every turn keeps: the components have moved by the sums of the entries so
far, and the sequences have been handed out one after another.
-/

namespace InvoiceReservation

variable {start program : ProgramPosition} {acc : AdvanceResult}
variable {entries : List PendingLedgerEntry} {now : Timestamp}

/-- A component of a position. -/
def ProgramPosition.component (p : ProgramPosition) : PositionComponent → Int
  | .local => p.localReservedMinor
  | .treasury => p.treasuryReservedMinor
  | .limit => p.creditLimitMinor

/-- The sum of the entries of one component. -/
def componentSum (c : PositionComponent) (entries : List PendingLedgerEntry) : Int :=
  ((entries.filter (·.component = c)).map (·.deltaMinor)).sum

@[simp] theorem componentSum_nil {c : PositionComponent} : componentSum c [] = 0 := rfl

theorem componentSum_append {c : PositionComponent} {xs ys : List PendingLedgerEntry} :
    componentSum c (xs ++ ys) = componentSum c xs + componentSum c ys := by
  simp [componentSum, List.filter_append]

theorem componentSum_singleton {c : PositionComponent} {entry : PendingLedgerEntry} :
    componentSum c [entry] = if entry.component = c then entry.deltaMinor else 0 := by
  by_cases h : entry.component = c <;> simp [componentSum, h]

/-- `acc` is `start` advanced by the entries of `acc`. -/
structure Advances (start : ProgramPosition) (acc : AdvanceResult) : Prop where
  component : ∀ c, acc.program.component c =
    start.component c + componentSum c (acc.entries.map (·.toPendingLedgerEntry))
  next : acc.program.nextSequence = start.nextSequence + acc.entries.length
  sequences : acc.entries.map (·.sequence) =
    (List.range acc.entries.length).map fun i : ℕ => start.nextSequence + i
  id : acc.program.id = start.id
  currency : acc.program.currency = start.currency
  investigation : acc.program.investigationRequired = start.investigationRequired
  verified : acc.program.positionVerified = start.positionVerified

theorem Advances.refl : Advances start ⟨start, []⟩ := by
  refine ⟨fun c => ?_, ?_, ?_, rfl, rfl, rfl, rfl⟩ <;> simp

/-- **One turn of the loop.** -/
theorem Advances.advanceEntry (h : Advances start acc) (pending : PendingLedgerEntry) :
    Advances start (advanceEntry acc pending) := by
  have hentries : (InvoiceReservation.advanceEntry acc pending).entries =
      acc.entries ++ [{ pending with sequence := acc.program.nextSequence }] := rfl
  have hseq : acc.program.nextSequence = start.nextSequence + acc.entries.length := h.next
  refine ⟨fun c => ?_, ?_, ?_, ?_, ?_, ?_, ?_⟩
  · rw [hentries, List.map_append, componentSum_append, ← add_assoc, ← h.component c]
    simp only [List.map_cons, List.map_nil, componentSum_singleton]
    cases hc : pending.component <;> cases c <;>
      simp [InvoiceReservation.advanceEntry, ProgramPosition.component, hc]
  · have : (InvoiceReservation.advanceEntry acc pending).program.nextSequence =
        acc.program.nextSequence + 1 := by
      cases hc : pending.component <;> simp [InvoiceReservation.advanceEntry, hc]
    rw [this, hentries, List.length_append, hseq]
    simp only [List.length_singleton]
    omega
  · rw [hentries, List.map_append, h.sequences, List.length_append, List.length_singleton,
      List.range_succ, List.map_append]
    simp [hseq]
  · rw [← h.id]; cases hc : pending.component <;> simp [InvoiceReservation.advanceEntry, hc]
  · rw [← h.currency]; cases hc : pending.component <;> simp [InvoiceReservation.advanceEntry, hc]
  · rw [← h.investigation]
    cases hc : pending.component <;> simp [InvoiceReservation.advanceEntry, hc]
  · rw [← h.verified]; cases hc : pending.component <;> simp [InvoiceReservation.advanceEntry, hc]

theorem Advances.foldl (h : Advances start acc) :
    Advances start (entries.foldl InvoiceReservation.advanceEntry acc) := by
  induction entries generalizing acc with
  | nil => exact h
  | cons entry entries ih => exact ih (h.advanceEntry entry)

/-- The mark is no part of what an advance keeps. -/
theorem Advances.mark (h : Advances start acc) (since : Option Timestamp) :
    Advances start { acc with program := { acc.program with overLimitSince := since } } :=
  ⟨fun c => by rw [← h.component c]; cases c <;> rfl, h.next, h.sequences, h.id, h.currency,
    h.investigation, h.verified⟩

/-- The entries the loop hands out are those it was given. -/
theorem foldl_advanceEntry_entries :
    ((entries.foldl advanceEntry acc).entries.map (·.toPendingLedgerEntry)) =
      acc.entries.map (·.toPendingLedgerEntry) ++ entries := by
  induction entries generalizing acc with
  | nil => simp
  | cons entry entries ih => rw [List.foldl_cons, ih]; simp [advanceEntry]

/-- **An advance moves every component by the sum of its entries, and
numbers them from the program's next sequence.** -/
theorem advances_advancePosition : Advances program (advancePosition program entries now) := by
  have h : Advances program (entries.foldl advanceEntry ⟨program, []⟩) := Advances.refl.foldl
  unfold advancePosition
  dsimp only
  split
  · exact (h.advanceEntry _).mark _
  · split
    · exact (h.advanceEntry _).mark _
    · exact h

/-- The causes that only an advance itself writes. -/
def LedgerCause.isMarker : LedgerCause → Bool
  | .overLimitOnset => true
  | .overLimitCleared => true
  | _ => false

/-- The marker an advance closes with, if it does. -/
def markers (program : ProgramPosition) (entries : List PendingLedgerEntry) :
    List PendingLedgerEntry :=
  let nowOverLimit := isOverLimit (entries.foldl advanceEntry ⟨program, []⟩).program
  let correlationId := closingCorrelationId entries
  if !program.overLimitSince.isSome && nowOverLimit then
    [overLimitMarker .overLimitOnset correlationId]
  else if program.overLimitSince.isSome && !nowOverLimit then
    [overLimitMarker .overLimitCleared correlationId]
  else []

theorem foldl_advanceEntry_overLimitSince :
    (entries.foldl advanceEntry acc).program.overLimitSince = acc.program.overLimitSince := by
  induction entries generalizing acc with
  | nil => rfl
  | cons entry entries ih =>
    rw [List.foldl_cons, ih]
    cases hc : entry.component <;> simp [advanceEntry, hc]

/-- The entries of an advance are those asked for, and the marker. -/
theorem advancePosition_entries :
    (advancePosition program entries now).entries.map (·.toPendingLedgerEntry) =
      entries ++ markers program entries := by
  have h := @foldl_advanceEntry_entries ⟨program, []⟩ entries
  unfold advancePosition markers
  dsimp only
  split
  · simp only [advanceEntry, List.map_append, h]
    simp
  · split
    · simp only [advanceEntry, List.map_append, h]
      simp
    · rw [h]; simp

/-- A marker moves nothing. -/
theorem of_mem_markers {marker : PendingLedgerEntry} (h : marker ∈ markers program entries) :
    ∃ cause ∈ [LedgerCause.overLimitOnset, LedgerCause.overLimitCleared],
      marker = overLimitMarker cause (closingCorrelationId entries) := by
  unfold markers at h
  dsimp only at h
  split at h
  · exact ⟨_, by simp, List.mem_singleton.mp h⟩
  · split at h
    · exact ⟨_, by simp, List.mem_singleton.mp h⟩
    · cases h

theorem componentSum_markers {c : PositionComponent} :
    componentSum c (markers program entries) = 0 := by
  unfold markers
  dsimp only
  split
  · simp [componentSum_singleton, overLimitMarker]
  · split
    · simp [componentSum_singleton, overLimitMarker]
    · rfl

/-- An advance moves every component by the entries asked for. -/
theorem advancePosition_component {c : PositionComponent} :
    (advancePosition program entries now).program.component c =
      program.component c + componentSum c entries := by
  rw [advances_advancePosition.component c, advancePosition_entries, componentSum_append,
    componentSum_markers, add_zero]

/-- **After an advance the mark is set exactly when the program is over its
limit.** -/
theorem advancePosition_mark :
    (advancePosition program entries now).program.overLimitSince.isSome =
      isOverLimit (advancePosition program entries now).program := by
  have hmark : (entries.foldl advanceEntry ⟨program, []⟩).program.overLimitSince =
      program.overLimitSince := foldl_advanceEntry_overLimitSince
  unfold advancePosition
  dsimp only
  split
  · rename_i h
    simp only [Bool.and_eq_true, Bool.not_eq_true'] at h
    simp only [Option.isSome_some]
    rw [← h.2]
    simp [advanceEntry, overLimitMarker, isOverLimit, totalReserved]
  · split
    · rename_i h
      simp only [Bool.and_eq_true, Bool.not_eq_true'] at h
      simp only [Option.isSome_none]
      rw [← h.2]
      simp [advanceEntry, overLimitMarker, isOverLimit, totalReserved]
    · rename_i h₁ h₂
      rw [hmark]
      revert h₁ h₂
      cases program.overLimitSince.isSome <;>
        cases isOverLimit (entries.foldl advanceEntry ⟨program, []⟩).program <;> simp

end InvoiceReservation
