import Mathlib.Data.List.Basic
/-!
# Joined fields

Fields put one after another with a separator between them. The join can be
taken apart again from either end for as long as the fields are free of the
separator. One field in the middle may hold it. Two cannot: what is between
them can be found in either of them, and `Shift` says how.
-/

namespace Separated

variable {α : Type*} {sep : α} {x y u v p p' i i' a a' c c' n n' : List α}

/-- Everything up to the first separator. -/
theorem split_first (hx : sep ∉ x) (hy : sep ∉ y) (h : x ++ sep :: u = y ++ sep :: v) :
    x = y ∧ u = v := by
  induction x generalizing y with
  | nil =>
    cases y with
    | nil => exact ⟨rfl, (List.cons.inj h).2⟩
    | cons b y => exact absurd ((List.cons.inj h).1 ▸ List.mem_cons_self) hy
  | cons b x ih =>
    cases y with
    | nil => exact absurd ((List.cons.inj h).1 ▸ List.mem_cons_self) hx
    | cons b' y =>
      obtain ⟨rfl, htail⟩ := List.cons.inj h
      obtain ⟨rfl, hu⟩ := ih (fun hm => hx (List.mem_cons_of_mem _ hm))
        (fun hm => hy (List.mem_cons_of_mem _ hm)) htail
      exact ⟨rfl, hu⟩

/-- Everything from the last separator on. -/
theorem split_last (hu : sep ∉ u) (hv : sep ∉ v) (h : x ++ sep :: u = y ++ sep :: v) :
    x = y ∧ u = v := by
  have hreverse := congrArg List.reverse h
  simp only [List.reverse_append, List.reverse_cons, List.append_assoc, List.cons_append,
    List.nil_append] at hreverse
  obtain ⟨he, hr⟩ := split_first (by simpa using hu) (by simpa using hv) hreverse
  exact ⟨List.reverse_injective hr, List.reverse_injective he⟩

/-- **One free field among closed ones.** -/
theorem one_free (hp : sep ∉ p) (hp' : sep ∉ p') (ha : sep ∉ a) (ha' : sep ∉ a') (hc : sep ∉ c)
    (hc' : sep ∉ c') (h : p ++ sep :: (i ++ sep :: (a ++ sep :: c)) =
      p' ++ sep :: (i' ++ sep :: (a' ++ sep :: c'))) : p = p' ∧ i = i' ∧ a = a' ∧ c = c' := by
  obtain ⟨rfl, hrest⟩ := split_first hp hp' h
  rw [← List.cons_append, ← List.cons_append, ← List.append_assoc, ← List.append_assoc] at hrest
  obtain ⟨hfront, rfl⟩ := split_last hc hc' hrest
  obtain ⟨rfl, rfl⟩ := split_last ha ha' hfront
  exact ⟨rfl, rfl, rfl, rfl⟩

/-- The free field before `a` goes on, in another join, with `a` and more;
and the free field behind `a` begins with that, and ends as the other does. -/
def Shift (sep : α) (i a n i' a' n' : List α) : Prop :=
  ∃ more, i' = i ++ sep :: (a ++ more) ∧ sep :: n = more ++ sep :: (a' ++ sep :: n')

theorem Shift.join_eq (h : Shift sep i a n i' a' n') :
    i ++ sep :: (a ++ sep :: n) = i' ++ sep :: (a' ++ sep :: n') := by
  obtain ⟨more, rfl, hn⟩ := h
  rw [hn]
  simp

theorem Shift.ne (h : Shift sep i a n i' a' n') : i ≠ i' := by
  obtain ⟨more, rfl, -⟩ := h
  intro he
  have hlength := congrArg List.length he
  simp only [List.length_append, List.length_cons] at hlength
  omega

/-- **Two free fields around a closed one**: equal joins have equal fields,
or one is a shift of the other. -/
theorem two_free (ha : sep ∉ a) (ha' : sep ∉ a')
    (h : i ++ sep :: (a ++ sep :: n) = i' ++ sep :: (a' ++ sep :: n')) :
    (i = i' ∧ a = a' ∧ n = n') ∨ Shift sep i a n i' a' n' ∨ Shift sep i' a' n' i a n := by
  have hshift : ∀ {i a n i' a' n' d : List α}, sep ∉ a → d ≠ [] → i' = i ++ d →
      sep :: (a ++ sep :: n) = d ++ sep :: (a' ++ sep :: n') → Shift sep i a n i' a' n' := by
    intro i a n i' a' n' d ha hd hi hrest
    obtain ⟨b, d, rfl⟩ := List.exists_cons_of_ne_nil hd
    obtain ⟨rfl, htail⟩ := List.cons.inj hrest
    -- `a` ends before the next separator, so what `i'` goes on with begins with it
    rcases List.append_eq_append_iff.mp htail with ⟨more, rfl, hn⟩ | ⟨more, rfl, hn⟩
    · exact ⟨more, hi, hn⟩
    · cases more with
      | nil => exact ⟨[], by simpa using hi, by simpa using hn.symm⟩
      | cons b' more =>
        obtain ⟨rfl, -⟩ := List.cons.inj hn
        exact absurd (List.mem_append_right _ List.mem_cons_self) ha
  rcases List.append_eq_append_iff.mp h with ⟨d, hi, hrest⟩ | ⟨d, hi, hrest⟩
  · by_cases hd : d = []
    · subst hd
      obtain ⟨rfl, rfl⟩ := split_first ha ha' (List.cons.inj hrest).2
      exact Or.inl ⟨by simpa using hi.symm, rfl, rfl⟩
    · exact Or.inr (Or.inl (hshift ha hd hi hrest))
  · by_cases hd : d = []
    · subst hd
      obtain ⟨rfl, rfl⟩ := split_first ha' ha (List.cons.inj hrest).2
      exact Or.inl ⟨by simpa using hi, rfl, rfl⟩
    · exact Or.inr (Or.inr (hshift ha' hd hi hrest))

end Separated
