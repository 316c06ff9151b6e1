import InvoiceReservation.Helpers.Advance
/-!
# Advancing in batches

The comparison with the limit is made once an advance, on what the
position has come to. So two advances end where one over all their
entries does, and hand out the same entries; what the split can show, and
the batch cannot, is a mark that moved and came back.
-/

namespace InvoiceReservation

variable {program : ProgramPosition} {entries xs ys : List PendingLedgerEntry} {now : Timestamp}

/-- What an advance emits, its sequences apart. -/
def AdvanceResult.emitted (result : AdvanceResult) : List PendingLedgerEntry :=
  result.entries.map (·.toPendingLedgerEntry)

/-- The sequences of what an advance emits. -/
def AdvanceResult.sequences (result : AdvanceResult) : List Int :=
  result.entries.map (·.sequence)

/-- Entries that are no over-limit markers. -/
def withoutMarkers (entries : List PendingLedgerEntry) : List PendingLedgerEntry :=
  entries.filter fun entry => !entry.cause.isMarker

theorem withoutMarkers_append :
    withoutMarkers (xs ++ ys) = withoutMarkers xs ++ withoutMarkers ys := by
  simp only [withoutMarkers, List.filter_append]

/-- Consecutive sequences. -/
def consecutive (first : Int) (n : Nat) : List Int := (List.range n).map fun i : Nat => first + i

theorem consecutive_add {first : Int} {m n : Nat} :
    consecutive first (m + n) = consecutive first m ++ consecutive (first + m) n := by
  simp only [consecutive, List.range_add, List.map_append, List.map_map]
  congr 1
  refine List.map_congr_left fun i _ => ?_
  show first + ((m + i : Nat) : Int) = first + m + i
  omega

/-! ## Moves of the mark -/

/-- The causes of the markers a move of the mark leaves. -/
def crossing (before after : Bool) : List LedgerCause :=
  if !before && after then [.overLimitOnset]
  else if before && !after then [.overLimitCleared]
  else []

/-- The pair a mark leaves that moves and comes back. -/
def cancelling (before between after : Bool) : List LedgerCause :=
  if before ≠ between ∧ after = before then
    if before then [.overLimitCleared, .overLimitOnset] else [.overLimitOnset, .overLimitCleared]
  else []

/-- **Two moves are one**, up to the pair that cancels out. -/
theorem crossing_append (before between after : Bool) :
    crossing before between ++ crossing between after =
      crossing before after ++ cancelling before between after := by
  revert before between after
  decide

/-- The components decide what is over the limit. -/
theorem isOverLimit_congr {x y : ProgramPosition} (h : ∀ c, x.component c = y.component c) :
    isOverLimit x = isOverLimit y := by
  have hlocal : x.localReservedMinor = y.localReservedMinor := h .local
  have htreasury : x.treasuryReservedMinor = y.treasuryReservedMinor := h .treasury
  have hlimit : x.creditLimitMinor = y.creditLimitMinor := h .limit
  unfold isOverLimit totalReserved
  rw [hlocal, htreasury, hlimit]

/-- The position the loop leaves is over the limit exactly where the advance's
is: the marker moves nothing. -/
theorem isOverLimit_foldl : isOverLimit (entries.foldl advanceEntry ⟨program, []⟩).program =
    isOverLimit (advancePosition program entries now).program := by
  have h : Advances program (entries.foldl advanceEntry ⟨program, []⟩) := Advances.refl.foldl
  refine isOverLimit_congr fun c => ?_
  rw [h.component c, foldl_advanceEntry_entries, advancePosition_component]
  rfl

/-- **The markers of an advance** are those of the mark's move. -/
theorem map_cause_markers : (markers program entries).map (·.cause) =
    crossing program.overLimitSince.isSome
      (advancePosition program entries now).program.overLimitSince.isSome := by
  rw [advancePosition_mark, ← isOverLimit_foldl]
  unfold markers crossing
  dsimp only
  split
  · rfl
  · split <;> rfl

theorem withoutMarkers_markers : withoutMarkers (markers program entries) = [] := by
  refine List.filter_eq_nil_iff.mpr fun marker hmarker => ?_
  obtain ⟨cause, hcause, rfl⟩ := of_mem_markers hmarker
  have hmarks : ∀ cause ∈ [LedgerCause.overLimitOnset, .overLimitCleared],
      ¬ (!cause.isMarker) = true := by decide
  exact hmarks cause hcause

theorem withoutMarkers_emitted :
    withoutMarkers (advancePosition program entries now).emitted = withoutMarkers entries := by
  have hemitted : (advancePosition program entries now).emitted =
    entries ++ markers program entries := advancePosition_entries
  rw [hemitted, withoutMarkers_append, withoutMarkers_markers, List.append_nil]

/-- The sequences of an advance are consecutive. -/
theorem sequences_advancePosition : (advancePosition program entries now).sequences =
    consecutive program.nextSequence (advancePosition program entries now).entries.length :=
  advances_advancePosition.sequences

/-! ## Two advances and one -/

/-- `first` and then `second` come to what `batch` comes to. -/
structure AgreesWithBatch (program : ProgramPosition) (xs ys : List PendingLedgerEntry)
    (first second batch : AdvanceResult) : Prop where
  component : ∀ c, second.program.component c = batch.program.component c
  mark : second.program.overLimitSince.isSome = batch.program.overLimitSince.isSome
  emitted : withoutMarkers (first.emitted ++ second.emitted) = withoutMarkers batch.emitted
  sequences : first.sequences ++ second.sequences =
    consecutive program.nextSequence (first.entries ++ second.entries).length
  batchSequences : batch.sequences = consecutive program.nextSequence batch.entries.length
  markers : ∃ m₁ m₂ m, first.emitted = xs ++ m₁ ∧ second.emitted = ys ++ m₂ ∧
    batch.emitted = xs ++ ys ++ m ∧ (∀ marker ∈ m₁ ++ m₂ ++ m, marker.deltaMinor = 0) ∧
    (m₁ ++ m₂).map (·.cause) = m.map (·.cause) ++ cancelling program.overLimitSince.isSome
      first.program.overLimitSince.isSome second.program.overLimitSince.isSome

/-- **Advancing in two batches agrees with advancing in one**: the same
components and the same mark, the same entries in the same order, numbered
without a gap, and no markers besides but the pair of a mark that moved
and came back. -/
theorem batches_agree (program : ProgramPosition) (xs ys : List PendingLedgerEntry)
    (now₁ now₂ now : Timestamp) :
    AgreesWithBatch program xs ys (advancePosition program xs now₁)
      (advancePosition (advancePosition program xs now₁).program ys now₂)
      (advancePosition program (xs ++ ys) now) := by
  generalize hfirst : advancePosition program xs now₁ = first
  generalize hsecond : advancePosition first.program ys now₂ = second
  generalize hbatch : advancePosition program (xs ++ ys) now = batch
  have hcomponent : ∀ c, second.program.component c = batch.program.component c := by
    intro c
    rw [← hsecond, ← hbatch, advancePosition_component, advancePosition_component, ← hfirst,
      advancePosition_component, componentSum_append, add_assoc]
  have hmark : second.program.overLimitSince.isSome = batch.program.overLimitSince.isSome := by
    rw [← hsecond, ← hbatch, advancePosition_mark, advancePosition_mark, hsecond, hbatch]
    exact isOverLimit_congr hcomponent
  refine ⟨hcomponent, hmark, ?_, ?_, ?_, markers program xs, markers first.program ys,
    markers program (xs ++ ys), ?_, ?_, ?_, ?_, ?_⟩
  · rw [withoutMarkers_append, ← hsecond, ← hfirst, ← hbatch, withoutMarkers_emitted,
      withoutMarkers_emitted, withoutMarkers_emitted, withoutMarkers_append]
  · -- the second advance goes on where the first stopped
    have hnext : first.program.nextSequence = program.nextSequence + first.entries.length := by
      rw [← hfirst]
      exact advances_advancePosition.next
    have hsequences := @sequences_advancePosition program xs now₁
    have hsequences' := @sequences_advancePosition first.program ys now₂
    rw [hfirst] at hsequences
    rw [hsecond, hnext] at hsequences'
    rw [hsequences, hsequences', List.length_append, consecutive_add]
  · rw [← hbatch]
    exact sequences_advancePosition
  · rw [← hfirst]
    exact advancePosition_entries
  · rw [← hsecond]
    exact advancePosition_entries
  · rw [← hbatch]
    exact advancePosition_entries
  · intro marker hmarker
    rw [List.mem_append, List.mem_append] at hmarker
    rcases hmarker with (h | h) | h <;> obtain ⟨_, -, rfl⟩ := of_mem_markers h <;> rfl
  · -- the markers are the moves of the mark, which are told apart by their ends
    have hmove := @map_cause_markers program xs now₁
    have hmove' := @map_cause_markers first.program ys now₂
    have hwhole := @map_cause_markers program (xs ++ ys) now
    rw [hfirst] at hmove
    rw [hsecond] at hmove'
    rw [hbatch, ← hmark] at hwhole
    rw [List.map_append, hmove, hmove', hwhole]
    exact crossing_append _ _ _

end InvoiceReservation
