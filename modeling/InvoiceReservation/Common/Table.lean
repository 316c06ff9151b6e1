import Mathlib.Algebra.BigOperators.Group.List.Basic
import Mathlib.Algebra.Order.Ring.Int
/-!
# Keyed tables

A table is the list of its rows, in the order they were first written.
`get` looks a key up and `put` writes the new version of one row: in
place of the row with its key where there is one, and at the end where
there is none. What a later read finds is said here once, for a key, for
a selection that the key decides (`filter_put`), and for a sum
(`sum_put`).
-/

namespace Table

variable {α κ : Type} [DecidableEq κ] {key : α → κ} {k : κ} {row x : α} {l : List α}

/-- The row with a key. -/
def get (key : α → κ) (k : κ) : List α → Option α
  | [] => none
  | x :: xs => if key x = k then some x else get key k xs

/-- The new version of the row with `row`'s key. -/
def put (key : α → κ) (row : α) : List α → List α
  | [] => [row]
  | x :: xs => if key x = key row then row :: xs else x :: put key row xs

/-- The new versions of several rows, one after another. -/
def putAll (key : α → κ) (rows : List α) (l : List α) : List α :=
  rows.foldl (fun l row => put key row l) l

@[simp] theorem get_nil : get key k [] = none := rfl

@[simp] theorem putAll_nil : putAll key [] l = l := rfl

@[simp] theorem putAll_cons {rows : List α} :
    putAll key (row :: rows) l = putAll key rows (put key row l) := rfl

theorem get_append (l₁ l₂ : List α) :
    get key k (l₁ ++ l₂) = (get key k l₁).or (get key k l₂) := by
  induction l₁ with
  | nil => simp
  | cons x xs ih =>
    by_cases h : key x = k
    · simp [get, h]
    · simp [get, h, ih]

/-- What `get` finds is a row of the table, and has the key. -/
theorem get_eq_some (h : get key k l = some x) : x ∈ l ∧ key x = k := by
  induction l with
  | nil => simp at h
  | cons y ys ih =>
    by_cases hy : key y = k
    · simp only [get, hy, if_true, Option.some.injEq] at h
      subst h
      exact ⟨List.mem_cons_self, hy⟩
    · simp only [get, hy, if_false] at h
      exact ⟨List.mem_cons_of_mem _ (ih h).1, (ih h).2⟩

theorem get_eq_none_iff : get key k l = none ↔ ∀ y ∈ l, key y ≠ k := by
  induction l with
  | nil => simp
  | cons y ys ih =>
    by_cases hy : key y = k
    · simp [get, hy]
    · simp [get, hy, ih]

/-- A key some row has is found. -/
theorem exists_get_of_mem (h : x ∈ l) : ∃ y, get key (key x) l = some y := by
  cases hg : get key (key x) l with
  | some y => exact ⟨y, rfl⟩
  | none => exact absurd rfl (get_eq_none_iff.mp hg x h)

/-- **A write is read back.** -/
@[simp] theorem get_put_same : get key (key row) (put key row l) = some row := by
  induction l with
  | nil => simp [put, get]
  | cons x xs ih =>
    by_cases h : key x = key row
    · simp [put, get, h]
    · simp [put, get, h, ih]

/-- **And read at no other key.** -/
theorem get_put_ne (h : key row ≠ k) : get key k (put key row l) = get key k l := by
  induction l with
  | nil => simp [put, get, h]
  | cons x xs ih =>
    by_cases hx : key x = key row
    · have : key x ≠ k := hx ▸ h
      simp [put, get, hx, h]
    · by_cases hk : key x = k
      · subst hk; simp [put, get, hx]
      · simp [put, get, hx, hk, ih]

theorem get_put : get key k (put key row l) = if key row = k then some row else get key k l := by
  split
  · rename_i h; subst h; exact get_put_same
  · rename_i h; exact get_put_ne h

theorem mem_put (h : x ∈ put key row l) : x = row ∨ x ∈ l := by
  induction l with
  | nil => simpa [put] using h
  | cons y ys ih =>
    by_cases hy : key y = key row
    · simp only [put, hy, if_true, List.mem_cons] at h ⊢
      tauto
    · simp only [put, hy, if_false, List.mem_cons] at h ⊢
      rcases h with h | h
      · exact Or.inr (Or.inl h)
      · rcases ih h with h | h
        · exact Or.inl h
        · exact Or.inr (Or.inr h)

theorem self_mem_put : row ∈ put key row l := (get_eq_some get_put_same).1

/-- A key no row has is written at the end. -/
theorem put_of_get_none (h : get key (key row) l = none) : put key row l = l ++ [row] := by
  induction l with
  | nil => rfl
  | cons y ys ih =>
    have hy : key y ≠ key row := get_eq_none_iff.mp h y List.mem_cons_self
    simp only [get, hy, if_false] at h
    simp [put, hy, ih h]

/-- The keys of a table do not change when a row that it has is written. -/
theorem map_key_put_of_get (h : get key (key row) l = some x) :
    (put key row l).map key = l.map key := by
  induction l with
  | nil => simp at h
  | cons y ys ih =>
    by_cases hy : key y = key row
    · simp [put, hy]
    · simp only [get, hy, if_false] at h
      simp [put, hy, ih h]

/-- A version that is written twice is the second one. -/
theorem put_put {row' : α} (h : key row = key row') : put key row' (put key row l) =
    put key row' l := by
  induction l with
  | nil => simp [put, h]
  | cons x xs ih =>
    by_cases hx : key x = key row
    · simp [put, h, hx ▸ h]
    · simp [put, hx, h ▸ hx, ih]

/-- **A selection that the key decides sees a write exactly when the row
is in it.** -/
theorem filter_put {P : κ → Bool} :
    (put key row l).filter (fun x => P (key x)) =
      if P (key row) then put key row (l.filter fun x => P (key x))
      else l.filter fun x => P (key x) := by
  induction l with
  | nil => by_cases hP : P (key row) <;> simp [put, hP]
  | cons y ys ih =>
    by_cases hy : key y = key row
    · by_cases hP : P (key row) <;> simp [put, hy, hP]
    · by_cases hP : P (key row)
      · by_cases hPy : P (key y) <;> simp_all [put]
      · by_cases hPy : P (key y) <;> simp_all [put]

/-- A selection that the key decides sees the writes of its rows. -/
theorem filter_putAll {P : κ → Bool} {rows : List α} :
    (putAll key rows l).filter (fun x => P (key x)) =
      putAll key (rows.filter fun x => P (key x)) (l.filter fun x => P (key x)) := by
  induction rows generalizing l with
  | nil => rfl
  | cons row rows ih =>
    rw [putAll_cons, ih, filter_put]
    by_cases hP : P (key row) <;> simp [hP]

/-- A selection that has neither the row nor the one it replaces does not
see a write. -/
theorem filter_put_unseen {P : α → Bool} (hrow : P row = false)
    (hold : ∀ x, get key (key row) l = some x → P x = false) :
    (put key row l).filter P = l.filter P := by
  induction l with
  | nil => simp [put, hrow]
  | cons y ys ih =>
    by_cases hy : key y = key row
    · have hPy : P y = false := hold y (by simp [get, hy])
      simp [put, hy, hrow, hPy]
    · have hrest := ih fun x hx => hold x (by simpa [get, hy] using hx)
      simp [put, hy, List.filter_cons, hrest]

/-- What is read at a key after a write of rows of other keys. -/
theorem get_putAll_ne {rows : List α} (h : ∀ x ∈ rows, key x ≠ k) :
    get key k (putAll key rows l) = get key k l := by
  induction rows generalizing l with
  | nil => rfl
  | cons row rows ih =>
    rw [putAll_cons, ih fun x hx => h x (List.mem_cons_of_mem _ hx),
      get_put_ne (h row List.mem_cons_self)]

/-- What is read at a key after a write is told by what was read there before. -/
theorem get_putAll_congr {rows l' : List α} (h : get key k l = get key k l') :
    get key k (putAll key rows l) = get key k (putAll key rows l') := by
  induction rows generalizing l l' with
  | nil => exact h
  | cons row rows ih => exact ih (by rw [get_put, get_put, h])

/-- Keys stay unique. -/
theorem nodup_put (hn : (l.map key).Nodup) : ((put key row l).map key).Nodup := by
  cases hget : get key (key row) l with
  | some x => rw [map_key_put_of_get hget]; exact hn
  | none =>
    rw [put_of_get_none hget, List.map_append, List.nodup_append]
    refine ⟨hn, by simp, fun a ha b hb he => ?_⟩
    obtain ⟨x, hx, rfl⟩ := List.mem_map.mp ha
    obtain rfl := List.mem_singleton.mp hb
    exact get_eq_none_iff.mp hget x hx he

/-- What is read at a key after a write is a written row or what was there. -/
theorem get_putAll_cases {rows : List α} :
    get key k (putAll key rows l) = get key k l ∨
      ∃ row ∈ rows, key row = k ∧ get key k (putAll key rows l) = some row := by
  induction rows generalizing l with
  | nil => exact Or.inl rfl
  | cons row rows ih =>
    rcases @ih (put key row l) with he | ⟨x, hx, hk, he⟩
    · rw [putAll_cons, he, get_put]
      split
      · rename_i hk; exact Or.inr ⟨row, List.mem_cons_self, hk, rfl⟩
      · exact Or.inl rfl
    · exact Or.inr ⟨x, List.mem_cons_of_mem _ hx, hk, he⟩

theorem nodup_putAll {rows : List α} (hn : (l.map key).Nodup) :
    ((putAll key rows l).map key).Nodup := by
  induction rows generalizing l with
  | nil => exact hn
  | cons row rows ih => exact ih (nodup_put hn)

theorem isSome_get : (get key k l).isSome = l.any fun x => key x = k := by
  induction l with
  | nil => rfl
  | cons y ys ih => by_cases hy : key y = k <;> simp [get, hy, ih]

theorem any_put {P : κ → Bool} :
    (put key row l).any (fun x => P (key x)) = (P (key row) || l.any fun x => P (key x)) := by
  induction l with
  | nil => rfl
  | cons y ys ih =>
    by_cases hy : key y = key row
    · cases hP : P (key row) <;> simp [put, hy, hP]
    · simp only [put, hy, if_false, List.any_cons, ih]
      cases P (key y) <;> cases P (key row) <;> simp

/-- **A key is found after a write when it was written or found before.** -/
theorem any_putAll {P : κ → Bool} {rows : List α} :
    (putAll key rows l).any (fun x => P (key x)) =
      ((rows.any fun x => P (key x)) || l.any fun x => P (key x)) := by
  induction rows generalizing l with
  | nil => rfl
  | cons row rows ih =>
    rw [putAll_cons, ih, any_put, List.any_cons]
    cases P (key row) <;> simp

theorem isSome_get_putAll {rows : List α} : (get key k (putAll key rows l)).isSome =
    ((rows.any fun x => key x = k) || (get key k l).isSome) := by
  rw [isSome_get, isSome_get]
  exact @any_putAll _ _ _ key l (fun x => decide (x = k)) rows

/-- A row of a table after a write is one of the written or was there. -/
theorem mem_putAll {rows : List α} (h : x ∈ putAll key rows l) : x ∈ rows ∨ x ∈ l := by
  induction rows generalizing l with
  | nil => exact Or.inr h
  | cons row rows ih =>
    rcases ih h with hx | hx
    · exact Or.inl (List.mem_cons_of_mem _ hx)
    · rcases mem_put hx with rfl | hx
      · exact Or.inl List.mem_cons_self
      · exact Or.inr hx

/-- **A write that keeps a column leaves the column as it was.** -/
theorem map_put {β : Type} {f : α → β} (h : get key (key row) l = some x) (hf : f row = f x) :
    (put key row l).map f = l.map f := by
  induction l with
  | nil => simp at h
  | cons y ys ih =>
    by_cases hy : key y = key row
    · simp only [get, hy, if_true, Option.some.injEq] at h
      subst h
      simp [put, hy, hf]
    · simp only [get, hy, if_false] at h
      simp [put, hy, ih h]

theorem map_putAll {β : Type} {f : α → β} {rows : List α}
    (h : ∀ row ∈ rows, ∃ x, get key (key row) l = some x ∧ f row = f x) :
    (putAll key rows l).map f = l.map f := by
  induction rows generalizing l with
  | nil => rfl
  | cons row rows ih =>
    obtain ⟨x, hx, hf⟩ := h row List.mem_cons_self
    rw [putAll_cons, ih, map_put hx hf]
    intro row' hrow'
    obtain ⟨y, hy, hfy⟩ := h row' (List.mem_cons_of_mem _ hrow')
    by_cases hk : key row = key row'
    · -- both rows have one key, so the table has the same row for them
      rw [← hk, hx, Option.some.injEq] at hy
      subst hy
      exact ⟨row, by rw [← hk]; exact get_put_same, by rw [hf, hfy]⟩
    · exact ⟨y, by rw [get_put_ne hk]; exact hy, hfy⟩

/-- Rows of other keys are written behind a row. -/
theorem putAll_cons_of_ne {rows : List α} (h : ∀ y ∈ rows, key y ≠ key x) :
    putAll key rows (x :: l) = x :: putAll key rows l := by
  induction rows generalizing l with
  | nil => rfl
  | cons row rows ih =>
    have hrow : key x ≠ key row := (h row List.mem_cons_self).symm
    simp only [putAll_cons, put, if_neg hrow]
    exact ih fun y hy => h y (List.mem_cons_of_mem _ hy)

/-- **New versions of some of the rows**: each is in its row's place. -/
theorem putAll_map_filter {P : α → Bool} {f : α → α} (hn : (l.map key).Nodup)
    (hf : ∀ x, key (f x) = key x) :
    putAll key ((l.filter P).map f) l = l.map fun x => if P x then f x else x := by
  induction l with
  | nil => rfl
  | cons x xs ih =>
    rw [List.map_cons, List.nodup_cons] at hn
    have hne : ∀ y ∈ (xs.filter P).map f, key y ≠ key x := by
      intro y hy he
      obtain ⟨z, hz, rfl⟩ := List.mem_map.mp hy
      rw [hf] at he
      exact hn.1 (he ▸ List.mem_map_of_mem (List.mem_of_mem_filter hz))
    by_cases hP : P x
    · have hput : put key (f x) (x :: xs) = f x :: xs := by rw [put, if_pos (hf x).symm]
      rw [List.filter_cons_of_pos hP, List.map_cons, putAll_cons, hput,
        putAll_cons_of_ne (by rw [hf]; exact hne), ih hn.2, List.map_cons, if_pos hP]
    · rw [List.filter_cons_of_neg hP, putAll_cons_of_ne hne, ih hn.2, List.map_cons, if_neg hP]

/-- A row whose key no other row has is found by it. -/
theorem get_of_mem (hn : (l.map key).Nodup) (h : x ∈ l) : get key (key x) l = some x := by
  induction l with
  | nil => simp at h
  | cons y ys ih =>
    rw [List.map_cons, List.nodup_cons] at hn
    rcases List.mem_cons.mp h with rfl | h
    · simp [get]
    · have hy : key y ≠ key x := fun he => hn.1 (he ▸ List.mem_map_of_mem h)
      simp [get, hy, ih hn.2 h]

/-- A column that no two rows share selects a single row. -/
theorem filter_of_mem {f : α → κ} (hn : (l.map f).Nodup) (h : x ∈ l) :
    l.filter (fun y => f y = f x) = [x] := by
  induction l with
  | nil => simp at h
  | cons y ys ih =>
    rw [List.map_cons, List.nodup_cons] at hn
    rcases List.mem_cons.mp h with rfl | h
    · have hnil : ys.filter (fun y => f y = f x) = [] :=
        List.filter_eq_nil_iff.mpr fun y hy he =>
          hn.1 (of_decide_eq_true he ▸ List.mem_map_of_mem hy)
      simp [hnil]
    · have hy : f y ≠ f x := fun he => hn.1 (he ▸ List.mem_map_of_mem h)
      simp [hy, ih hn.2 h]

/-- **A write moves a sum by the difference of the two versions.** -/
theorem sum_put {f : α → Int} (h : get key (key row) l = some x) :
    ((put key row l).map f).sum = (l.map f).sum - f x + f row := by
  induction l with
  | nil => simp at h
  | cons y ys ih =>
    by_cases hy : key y = key row
    · simp only [get, hy, if_true, Option.some.injEq] at h
      subst h
      simp only [put, hy, if_true, List.map_cons, List.sum_cons]
      omega
    · simp only [get, hy, if_false] at h
      simp only [put, hy, if_false, List.map_cons, List.sum_cons, ih h]
      omega

/-- **A write is read under another key** that tells the rows from the one
written as the key does. -/
theorem map_put_rekey {β κ' : Type} [DecidableEq κ'] {f : α → β} {key' : β → κ'}
    (h : ∀ x ∈ l, key x = key row ↔ key' (f x) = key' (f row)) :
    (put key row l).map f = put key' (f row) (l.map f) := by
  induction l with
  | nil => rfl
  | cons y ys ih =>
    have hy := h y List.mem_cons_self
    have ih := ih fun x hx => h x (List.mem_cons_of_mem _ hx)
    by_cases hkey : key y = key row
    · simp [put, hkey, hy.mp hkey]
    · simp [put, hkey, mt hy.mpr hkey, ih]

/-- What a selection leaves out adds nothing where it is zero. -/
theorem sum_filter {P : α → Bool} {f : α → Int} (h : ∀ x ∈ l, P x = false → f x = 0) :
    ((l.filter P).map f).sum = (l.map f).sum := by
  induction l with
  | nil => rfl
  | cons y ys ih =>
    have ih := ih fun x hx => h x (List.mem_cons_of_mem _ hx)
    cases hP : P y with
    | true => simp [hP, ih]
    | false => simp [hP, ih, h y List.mem_cons_self hP]

/-- A property of every row survives a write of a row that has it. -/
theorem forall_put {P : α → Prop} (h : ∀ x ∈ l, P x) (hrow : P row) :
    ∀ x ∈ put key row l, P x := by
  intro x hx
  rcases mem_put hx with rfl | hx
  · exact hrow
  · exact h x hx

/-! ## Tables whose rows are declared -/

/-- A table every row of which has a property, and no two rows a key. -/
structure Keyed (key : α → κ) (P : α → Prop) (l : List α) : Prop where
  rows : ∀ x ∈ l, P x
  keys : (l.map key).Nodup

variable {P Q : α → Prop}

omit [DecidableEq κ] in
theorem keyed_nil : Keyed key P [] := ⟨by simp, List.nodup_nil⟩

omit [DecidableEq κ] in
theorem Keyed.mono (h : Keyed key P l) (hPQ : ∀ x, P x → Q x) : Keyed key Q l :=
  ⟨fun x hx => hPQ x (h.rows x hx), h.keys⟩

theorem Keyed.put (h : Keyed key P l) (hrow : P row) : Keyed key P (Table.put key row l) :=
  ⟨forall_put h.rows hrow, nodup_put h.keys⟩

theorem Keyed.putAll (h : Keyed key P l) {rows : List α} (hrows : ∀ x ∈ rows, P x) :
    Keyed key P (Table.putAll key rows l) := by
  refine ⟨fun x hx => ?_, nodup_putAll h.keys⟩
  rcases mem_putAll hx with hx | hx
  · exact hrows x hx
  · exact h.rows x hx

omit [DecidableEq κ] in
/-- Rows of new keys are added. -/
theorem Keyed.append (h : Keyed key P l) {rows : List α} (hrows : Keyed key P rows)
    (hnew : ∀ x ∈ rows, ∀ y ∈ l, key y ≠ key x) : Keyed key P (l ++ rows) := by
  refine ⟨List.forall_mem_append.mpr ⟨h.rows, hrows.rows⟩, ?_⟩
  rw [List.map_append, List.nodup_append]
  refine ⟨h.keys, hrows.keys, ?_⟩
  intro a ha b hb he
  obtain ⟨y, hy, rfl⟩ := List.mem_map.mp ha
  obtain ⟨x, hx, rfl⟩ := List.mem_map.mp hb
  exact hnew x hx y hy he

omit [DecidableEq κ] in
/-- A row of a new key is added. -/
theorem Keyed.concat (h : Keyed key P l) (hrow : P row) (hnew : ∀ y ∈ l, key y ≠ key row) :
    Keyed key P (l ++ [row]) :=
  h.append ⟨List.forall_mem_singleton.mpr hrow, by simp⟩ (List.forall_mem_singleton.mpr hnew)

/-- What a selection that the key decides has at a key it has is what is there. -/
theorem get_filter_key {P : κ → Bool} (hk : P k = true) :
    get key k (l.filter fun x => P (key x)) = get key k l := by
  induction l with
  | nil => rfl
  | cons y ys ih =>
    by_cases hy : key y = k
    · simp [get, hy, hk]
    · cases hP : P (key y) <;> simp [get, hy, hP, ih]

/-- Where keys are unique, what a selection has at a key is what is there, if
it is selected. -/
theorem get_filter {P : α → Bool} (hn : (l.map key).Nodup) :
    get key k (l.filter P) = (get key k l).filter P := by
  induction l with
  | nil => rfl
  | cons y ys ih =>
    obtain ⟨hy, hys⟩ := List.nodup_cons.mp hn
    by_cases hk : key y = k
    · cases hP : P y with
      | true => simp [get, hk, hP, Option.filter_some]
      | false =>
        have hnone : get key k ys = none := by
          refine get_eq_none_iff.mpr fun x hx hkx => hy ?_
          exact List.mem_map.mpr ⟨x, hx, hkx.trans hk.symm⟩
        simp [get, hk, hP, ih hys, hnone, Option.filter_some]
    · cases hP : P y <;> simp [get, hk, hP, ih hys]

end Table
