import InvoiceReservation.Common.Table
/-!
# Tables that grow

A table grows along a relation of versions: every row stays in its place,
in a version that the relation allows, and new rows stand behind them.
Growth is composed where the relation is. A row that is put and rows that
are rewritten make a table grow as far as the new versions are allowed, and
what is read under a key is read there later, in a version that is allowed.
-/

namespace Table

variable {α κ : Type} {R : α → α → Prop} {l l' l'' : List α}

/-- A table that has grown along `R`. -/
def Grows (R : α → α → Prop) (l l' : List α) : Prop :=
  ∃ kept added, l' = kept ++ added ∧ List.Forall₂ R l kept

theorem Grows.refl (hR : ∀ x, R x x) (l : List α) : Grows R l l :=
  ⟨l, [], (List.append_nil l).symm, List.forall₂_same.mpr fun x _ => hR x⟩

theorem forall₂_trans (hR : ∀ x y z, R x y → R y z → R x z) (h : List.Forall₂ R l l')
    (h' : List.Forall₂ R l' l'') : List.Forall₂ R l l'' := by
  induction h generalizing l'' with
  | nil => exact h'
  | cons hx _ ih =>
    cases h' with
    | cons hy hrest => exact .cons (hR _ _ _ hx hy) (ih hrest)

/-- **Growth is composed.** -/
theorem Grows.trans (hR : ∀ x y z, R x y → R y z → R x z) (h : Grows R l l')
    (h' : Grows R l' l'') : Grows R l l'' := by
  obtain ⟨kept, added, rfl, hkept⟩ := h
  obtain ⟨kept', added', rfl, hkept'⟩ := h'
  -- the rows that were there first are the first of those that are kept
  have hfirst := List.forall₂_take_append _ _ _ (List.Forall₂.flip hkept')
  refine ⟨kept'.take kept.length, kept'.drop kept.length ++ added', ?_,
    forall₂_trans hR hkept (List.Forall₂.flip hfirst)⟩
  rw [← List.append_assoc, List.take_append_drop]

/-! ## What makes a table grow -/

/-- Rows that are rewritten in place. -/
theorem Grows.map {f : α → α} (hf : ∀ x ∈ l, R x (f x)) : Grows R l (l.map f) :=
  ⟨l.map f, [], (List.append_nil _).symm,
    List.forall₂_map_right_iff.mpr (List.forall₂_same.mpr hf)⟩

variable [DecidableEq κ] {key : α → κ} {k : κ} {row x : α}

/-- **New versions of some rows**, where no two rows have a key. -/
theorem Grows.rewrite {P : α → Bool} {f : α → α} (hR : ∀ x, R x x) (hn : (l.map key).Nodup)
    (hkey : ∀ x, key (f x) = key x) (hf : ∀ x ∈ l, P x = true → R x (f x)) :
    Grows R l (putAll key ((l.filter P).map f) l) := by
  rw [putAll_map_filter hn hkey]
  refine Grows.map fun x hx => ?_
  split
  · rename_i hP
    exact hf x hx hP
  · exact hR x

/-- **A row that is put**: a version of the one with its key, or a new one. -/
theorem Grows.put (hR : ∀ x, R x x) (h : ∀ x, get key (key row) l = some x → R x row) :
    Grows R l (put key row l) := by
  induction l with
  | nil => exact ⟨[], [row], rfl, .nil⟩
  | cons x xs ih =>
    by_cases hx : key x = key row
    · refine ⟨row :: xs, [], by simp [Table.put, hx], .cons (h x (by simp [Table.get, hx])) ?_⟩
      exact List.forall₂_same.mpr fun y _ => hR y
    · obtain ⟨kept, added, he, hkept⟩ := ih fun y hy => h y (by simpa [Table.get, hx] using hy)
      exact ⟨x :: kept, added, by simp [Table.put, hx, he], .cons (hR x) hkept⟩

/-! ## What is read later -/

/-- **What is read under a key is read there later**, in a later version. -/
theorem Grows.get (hkey : ∀ x y, R x y → key y = key x) (h : Grows R l l')
    (hx : get key k l = some x) : ∃ y, get key k l' = some y ∧ R x y := by
  obtain ⟨kept, added, rfl, hkept⟩ := h
  induction hkept with
  | nil => cases hx
  | @cons z y _ _ hR _ ih =>
    have hy := hkey z y hR
    rw [List.cons_append]
    by_cases hk : key z = k
    · rw [Table.get, if_pos hk, Option.some.injEq] at hx
      exact ⟨y, by rw [Table.get, if_pos (hy.trans hk)], hx ▸ hR⟩
    · rw [Table.get, if_neg hk] at hx
      obtain ⟨y', hy', hR'⟩ := ih hx
      exact ⟨y', by rw [Table.get, if_neg (hy ▸ hk), hy'], hR'⟩

/-- **A row that was there is there**, in a later version. -/
theorem Grows.mem (h : Grows R l l') (hx : x ∈ l) : ∃ y ∈ l', R x y := by
  obtain ⟨kept, added, rfl, hkept⟩ := h
  induction hkept with
  | nil => cases hx
  | cons hhead _ ih =>
    rcases List.mem_cons.mp hx with rfl | hx
    · exact ⟨_, List.mem_append_left _ List.mem_cons_self, hhead⟩
    · obtain ⟨y, hy, hR⟩ := ih hx
      exact ⟨y, List.mem_cons_of_mem _ hy, hR⟩

end Table
