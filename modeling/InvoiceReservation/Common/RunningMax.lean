import InvoiceReservation.Common.Table
import Mathlib.Order.Lattice
/-!
# Running maxima

The greatest value seen so far, where only that value is kept. An update is
guarded by a comparison, or takes the greater of the two: these are one
update (`raise_eq_max`), and over a list of values either keeps its maximum
(`foldl_raise`). A table of them keeps the maximum of each key apart
(`newest_foldl_observe`).
-/

namespace RunningMax

variable {α κ : Type} [LinearOrder α] {kept : Option α} {a : α}

/-- What is kept after one more value: the value, where it is greater. -/
def raise (kept : Option α) (a : α) : Option α := if kept.all (· < a) then some a else kept

@[simp] theorem raise_none : raise none a = some a := rfl

/-- **A guarded update takes the greater value.** -/
theorem raise_eq_max : raise kept a = some (max (kept.getD a) a) := by
  cases kept with
  | none => simp
  | some b =>
    by_cases h : b < a
    · simp [raise, h, max_eq_right h.le]
    · simp [raise, h, max_eq_left (not_lt.mp h)]

/-- From a value that is kept, the greatest of it and what follows. -/
theorem foldl_raise_some (xs : List α) : xs.foldl raise (some a) = (a :: xs).max? := by
  rw [List.max?_cons']
  induction xs generalizing a with
  | nil => rfl
  | cons x xs ih =>
    rw [List.foldl_cons, List.foldl_cons, raise_eq_max, Option.getD_some]
    exact ih

/-- **What is kept in the end is the maximum.** -/
theorem foldl_raise (xs : List α) : xs.foldl raise none = xs.max? := by
  cases xs with
  | nil => rfl
  | cons x xs => exact foldl_raise_some xs

/-! ## One for each key -/

variable [DecidableEq κ] {table : List (κ × α)} {j k : κ}

/-- What is kept of a key. -/
def newest (k : κ) (table : List (κ × α)) : Option α := (Table.get Prod.fst k table).map Prod.snd

/-- A value is seen of a key. -/
def observe (table : List (κ × α)) (seen : κ × α) : List (κ × α) :=
  if (newest seen.1 table).all (· < seen.2) then Table.put Prod.fst seen table else table

omit [LinearOrder α] in
@[simp] theorem newest_nil : newest k ([] : List (κ × α)) = none := rfl

/-- **One key's maximum is raised, and no other's.** -/
theorem newest_observe : newest j (observe table (k, a)) =
    if k = j then raise (newest j table) a else newest j table := by
  unfold observe raise
  by_cases hraised : (newest k table).all (· < a)
  · rw [if_pos hraised, newest, Table.get_put]
    by_cases hkey : k = j
    · subst hkey
      rw [if_pos rfl, if_pos rfl, if_pos hraised]
      rfl
    · rw [if_neg hkey, if_neg hkey]
      rfl
  · rw [if_neg hraised]
    by_cases hkey : k = j
    · subst hkey
      rw [if_pos rfl, if_neg hraised]
    · rw [if_neg hkey]

/-- The values that are seen of a key. -/
def seenOf (k : κ) (seen : List (κ × α)) : List α := (seen.filter (·.1 = k)).map (·.2)

omit [LinearOrder α] in
@[simp] theorem seenOf_nil : seenOf k ([] : List (κ × α)) = [] := rfl

omit [LinearOrder α] in
@[simp] theorem seenOf_cons {x : κ × α} {seen : List (κ × α)} :
    seenOf k (x :: seen) = (if x.1 = k then [x.2] else []) ++ seenOf k seen := by
  by_cases h : x.1 = k <;> simp [seenOf, h]

omit [LinearOrder α] in
theorem seenOf_append {xs ys : List (κ × α)} :
    seenOf k (xs ++ ys) = seenOf k xs ++ seenOf k ys := by
  simp [seenOf]

/-- What a run of observations keeps of a key. -/
theorem newest_foldl (seen : List (κ × α)) :
    newest k (seen.foldl observe table) = (seenOf k seen).foldl raise (newest k table) := by
  induction seen generalizing table with
  | nil => rfl
  | cons x seen ih =>
    obtain ⟨j, b⟩ := x
    rw [List.foldl_cons, ih, newest_observe, seenOf_cons, List.foldl_append]
    by_cases h : j = k <;> simp [h]

/-- **From an empty table, the maximum of what was seen of the key.** -/
theorem newest_foldl_observe (seen : List (κ × α)) :
    newest k (seen.foldl observe []) = (seenOf k seen).max? := by
  rw [newest_foldl, newest_nil, foldl_raise]

end RunningMax
