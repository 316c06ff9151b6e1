import Mathlib.Algebra.BigOperators.Group.List.Basic
import Mathlib.Algebra.Order.BigOperators.Group.List
import Mathlib.Algebra.Order.Group.Defs
import Mathlib.Tactic.GCongr
import Mathlib.Data.List.Perm.Basic
/-!
# Walks between bounds

A total that moves step by step and has to stay between two bounds after
each. Whether it does depends on the order of the steps; it does in every
order exactly if it does with all the steps down first, and with all the
steps up first.
-/

namespace Walks

variable {ι α : Type} [AddCommGroup α] [LinearOrder α]
variable {lo hi x : α} {f : ι → α} {items steps : List ι}

/-- From `x`, every step leaves the total between the bounds. -/
def Stays (lo hi : α) (f : ι → α) : α → List ι → Prop
  | _, [] => True
  | x, i :: items => (lo ≤ x + f i ∧ x + f i ≤ hi) ∧ Stays lo hi f (x + f i) items

/-- The steps down, as one. -/
def descent (f : ι → α) (items : List ι) : α := (items.map fun i => min (f i) 0).sum

/-- The steps up, as one. -/
def ascent (f : ι → α) (items : List ι) : α := (items.map fun i => max (f i) 0).sum

@[simp] theorem descent_cons {i : ι} :
    descent f (i :: items) = min (f i) 0 + descent f items := rfl

@[simp] theorem ascent_cons {i : ι} :
    ascent f (i :: items) = max (f i) 0 + ascent f items := rfl

/-- The order does not matter to the steps down, nor to those up. -/
theorem descent_perm (h : steps.Perm items) : descent f steps = descent f items :=
  (h.map _).sum_eq

theorem ascent_perm (h : steps.Perm items) : ascent f steps = ascent f items :=
  (h.map _).sum_eq

/-- Where a walk that stays between its bounds ends, it is between them. -/
theorem Stays.total (h : Stays lo hi f x items) (hx : lo ≤ x ∧ x ≤ hi) :
    lo ≤ x + (items.map f).sum ∧ x + (items.map f).sum ≤ hi := by
  induction items generalizing x with
  | nil => simpa using hx
  | cons i items ih =>
    rw [List.map_cons, List.sum_cons, ← add_assoc]
    exact ih h.2 h.1

theorem stays_append {later : List ι} : Stays lo hi f x (items ++ later) ↔
    Stays lo hi f x items ∧ Stays lo hi f (x + (items.map f).sum) later := by
  induction items generalizing x with
  | nil => simp [Stays]
  | cons i items ih => simp [Stays, ih, and_assoc, add_assoc]

/-- The steps of one sign come to the descent, or the ascent. -/
theorem sum_filter_nonpos :
    ((items.filter fun i => f i ≤ 0).map f).sum = descent f items := by
  induction items with
  | nil => rfl
  | cons i items ih =>
    by_cases hi : f i ≤ 0
    · simp [hi, ih]
    · simp [hi, ih, (not_le.mp hi).le]

theorem sum_filter_nonneg :
    ((items.filter fun i => 0 ≤ f i).map f).sum = ascent f items := by
  induction items with
  | nil => rfl
  | cons i items ih =>
    by_cases hi : 0 ≤ f i
    · simp [hi, ih]
    · simp [hi, ih, (not_le.mp hi).le]

/-! ## Bounds for every order -/

variable [IsOrderedAddMonoid α]

theorem descent_nonpos : descent f items ≤ 0 := by
  induction items with
  | nil => exact le_refl 0
  | cons i items ih => exact add_nonpos (min_le_right _ _) ih

theorem ascent_nonneg : 0 ≤ ascent f items := by
  induction items with
  | nil => exact le_refl 0
  | cons i items ih => exact add_nonneg (le_max_right _ _) ih

/-- **A walk stays between its bounds** if all its steps down would, and all
its steps up. -/
theorem Stays.of_bounds (hlo : lo ≤ x + descent f items) (hhi : x + ascent f items ≤ hi) :
    Stays lo hi f x items := by
  induction items generalizing x with
  | nil => trivial
  | cons i items ih =>
    rw [descent_cons, ← add_assoc] at hlo
    rw [ascent_cons, ← add_assoc] at hhi
    have hdown : x + min (f i) 0 + descent f items ≤ x + f i + descent f items := by
      gcongr; exact min_le_left _ _
    have hup : x + f i + ascent f items ≤ x + max (f i) 0 + ascent f items := by
      gcongr; exact le_max_left _ _
    refine ⟨⟨?_, ?_⟩, ih (hlo.trans hdown) (hup.trans hhi)⟩
    · exact (hlo.trans hdown).trans (add_le_of_nonpos_right descent_nonpos)
    · exact (le_add_of_nonneg_right ascent_nonneg).trans (hup.trans hhi)

/-- **Every order stays between the bounds if and only if the steps down do
by themselves, and the steps up.** -/
theorem forall_perm_stays_iff (hx : lo ≤ x ∧ x ≤ hi) :
    (∀ steps, steps.Perm items → Stays lo hi f x steps) ↔
      lo ≤ x + descent f items ∧ x + ascent f items ≤ hi := by
  constructor
  · intro h
    have hdown := h _ (List.filter_append_perm (fun i => f i ≤ 0) items)
    have hup := h _ (List.filter_append_perm (fun i => 0 ≤ f i) items)
    refine ⟨?_, ?_⟩
    · rw [← sum_filter_nonpos]
      exact ((stays_append.mp hdown).1.total hx).1
    · rw [← sum_filter_nonneg]
      exact ((stays_append.mp hup).1.total hx).2
  · rintro ⟨hlo, hhi⟩ steps hperm
    refine Stays.of_bounds ?_ ?_
    · rw [descent_perm hperm]; exact hlo
    · rw [ascent_perm hperm]; exact hhi

end Walks
