import Mathlib.Data.List.Sort
/-!
# The newest row

The newest of the rows that meet a condition, by a time they carry: what a
loop that keeps the later of two finds, and what the head of the rows in
descending order is.
-/

variable {α τ : Type*} [LinearOrder τ]

/-- A row that meets a condition, and no later one does. -/
structure Latest (P : α → Prop) (time : α → τ) (rows : List α) (row : α) : Prop where
  mem : row ∈ rows
  holds : P row
  latest : ∀ r ∈ rows, P r → time r ≤ time row

namespace Latest

variable {P : α → Prop} {time : α → τ} {rows : List α} {row row' : α}

/-- Where no two rows that meet it share a time there is one newest. -/
theorem unique (h : Latest P time rows row) (h' : Latest P time rows row')
    (hinjective : ∀ r ∈ rows, ∀ r' ∈ rows, P r → P r' → time r = time r' → r = r') : row = row' :=
  hinjective row h.mem row' h'.mem h.holds h'.holds
    (le_antisymm (h'.latest row h.mem h.holds) (h.latest row' h'.mem h'.holds))

variable [DecidablePred P]

/-- One turn of the loop. -/
def keep (P : α → Prop) [DecidablePred P] (time : α → τ) (newest : Option α) (row : α) : Option α :=
  if P row then
    match newest with
    | none => some row
    | some old => if time old < time row then some row else some old
  else newest

/-- What the loop has found, of the rows it has seen. -/
def Found (P : α → Prop) (time : α → τ) (rows : List α) : Option α → Prop
  | none => ∀ r ∈ rows, ¬ P r
  | some row => Latest P time rows row

/-- **The turn lemma.** -/
theorem Found.keep {newest : Option α} (h : Found P time rows newest) (row : α) :
    Found P time (rows ++ [row]) (keep P time newest row) := by
  unfold Latest.keep
  split
  · rename_i hrow
    cases newest with
    | none =>
      refine ⟨by simp, hrow, fun r hr hholds => ?_⟩
      rcases List.mem_append.mp hr with hr | hr
      · exact absurd hholds (h r hr)
      · rw [List.mem_singleton.mp hr]
    | some old =>
      have hold : Latest P time rows old := h
      dsimp only
      split
      · rename_i hlater
        refine ⟨by simp, hrow, fun r hr hholds => ?_⟩
        rcases List.mem_append.mp hr with hr | hr
        · exact (hold.latest r hr hholds).trans hlater.le
        · rw [List.mem_singleton.mp hr]
      · rename_i hlater
        refine ⟨List.mem_append_left _ hold.mem, hold.holds, fun r hr hholds => ?_⟩
        rcases List.mem_append.mp hr with hr | hr
        · exact hold.latest r hr hholds
        · rw [List.mem_singleton.mp hr]
          exact not_lt.mp hlater
  · rename_i hrow
    cases newest with
    | none =>
      intro r hr
      rcases List.mem_append.mp hr with hr | hr
      · exact h r hr
      · rwa [List.mem_singleton.mp hr]
    | some old =>
      have hold : Latest P time rows old := h
      refine ⟨List.mem_append_left _ hold.mem, hold.holds, fun r hr hholds => ?_⟩
      rcases List.mem_append.mp hr with hr | hr
      · exact hold.latest r hr hholds
      · rw [List.mem_singleton.mp hr] at hholds
        exact absurd hholds hrow

/-- **The loop finds the newest row**, if there is one. -/
theorem found_foldl : Found P time rows (rows.foldl (keep P time) none) := by
  have hloop : ∀ (seen rest : List α) (newest : Option α), Found P time seen newest →
      Found P time (seen ++ rest) (rest.foldl (keep P time) newest) := by
    intro seen rest
    induction rest generalizing seen with
    | nil => intro newest h; simpa using h
    | cons row rest ih =>
      intro newest h
      have := ih (seen ++ [row]) _ (h.keep row)
      simpa using this
  exact hloop [] rows none (by simp [Found])

/-- **And so does the descending order.** -/
theorem found_mergeSort : Found P time rows
    ((rows.filter P).mergeSort fun x y => decide (time y ≤ time x)).head? := by
  have hsorted : ((rows.filter P).mergeSort fun x y => decide (time y ≤ time x)).Pairwise
      fun x y => time y ≤ time x := by
    have hdescending := @List.pairwise_mergeSort α (fun x y => decide (time y ≤ time x))
      (fun x y z hxy hyz => by simp only [decide_eq_true_eq] at *; exact hyz.trans hxy)
      (fun x y => by simp [le_total]) (rows.filter P)
    simpa using hdescending
  have hmem : ∀ r, r ∈ (rows.filter P).mergeSort (fun x y => decide (time y ≤ time x)) ↔
      r ∈ rows ∧ P r := by simp
  generalize (rows.filter P).mergeSort (fun x y => decide (time y ≤ time x)) = sorted at *
  cases sorted with
  | nil =>
    intro r hr hholds
    exact absurd ((hmem r).mpr ⟨hr, hholds⟩) List.not_mem_nil
  | cons row rest =>
    have hrow := (hmem row).mp List.mem_cons_self
    refine ⟨hrow.1, hrow.2, fun r hr hholds => ?_⟩
    rcases List.mem_cons.mp ((hmem r).mpr ⟨hr, hholds⟩) with rfl | hr
    · exact le_refl _
    · exact (List.pairwise_cons.mp hsorted).1 r hr

end Latest
