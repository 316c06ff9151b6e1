import Mathlib.Data.List.Basic
/-!
# What the last write leaves

A log of which some elements write a value over the one before. Whether an
element writes is told by what stands before it in the log. A value is left
at the end where every write of another value has a write of it behind.
-/

namespace LastWrite

variable {α β : Type*} {writes : List α → α → Prop} {value : α → β}
variable {start b : β} {log : List α} {a : α}

/-- A value is left: a write of any other is followed by a write of it, and
where nothing writes it was there at the start. -/
structure Leaves (writes : List α → α → Prop) (value : α → β) (start : β) (log : List α)
    (b : β) : Prop where
  followed : ∀ pre x post, log = pre ++ x :: post → writes pre x → value x ≠ b →
    ∃ mid y rest, post = mid ++ y :: rest ∧ writes (pre ++ x :: mid) y ∧ value y = b
  unwritten : (∀ pre x post, log = pre ++ x :: post → ¬ writes pre x) → start = b

theorem leaves_nil : Leaves writes value start [] b ↔ start = b := by
  refine ⟨fun h => h.unwritten fun pre x post he => by simp at he, fun h => ⟨?_, fun _ => h⟩⟩
  intro pre x post he
  simp at he

/-- Where an element stands in a log with one more at its end. -/
theorem append_singleton_cases {pre post : List α} {x : α} (h : log ++ [a] = pre ++ x :: post) :
    (pre = log ∧ x = a ∧ post = []) ∨ ∃ rest, post = rest ++ [a] ∧ log = pre ++ x :: rest := by
  rcases List.append_eq_append_iff.mp h with ⟨more, rfl, hlast⟩ | ⟨more, rfl, hlast⟩
  · cases more with
    | nil => exact Or.inl (by simpa [eq_comm, and_comm] using hlast)
    | cons y more => simp at hlast
  · cases more with
    | nil => exact Or.inl (by simpa using hlast)
    | cons y more =>
      obtain ⟨rfl, rfl⟩ := List.cons.inj hlast
      exact Or.inr ⟨more, rfl, rfl⟩

/-- **One more write** leaves its own value and no other. -/
theorem leaves_append_of_writes (h : writes log a) :
    Leaves writes value start (log ++ [a]) b ↔ value a = b := by
  constructor
  · intro hleaves
    by_contra hne
    obtain ⟨mid, y, rest, he, -⟩ := hleaves.followed log a [] rfl h hne
    simp at he
  · rintro rfl
    refine ⟨fun pre x post he hwrites hne => ?_, fun hnone => absurd h (hnone log a [] rfl)⟩
    rcases append_singleton_cases he with ⟨-, rfl, -⟩ | ⟨rest, rfl, rfl⟩
    · exact absurd rfl hne
    · exact ⟨rest, a, [], rfl, h, rfl⟩

/-- **One more element that does not write** leaves what was left. -/
theorem leaves_append_of_not_writes (h : ¬ writes log a) :
    Leaves writes value start (log ++ [a]) b ↔ Leaves writes value start log b := by
  constructor
  · intro hleaves
    refine ⟨fun pre x post he hwrites hne => ?_, fun hnone => hleaves.unwritten ?_⟩
    · obtain ⟨mid, y, rest, hpost, hy, hvalue⟩ := hleaves.followed pre x (post ++ [a])
        (by rw [he]; simp) hwrites hne
      rcases append_singleton_cases hpost with ⟨rfl, rfl, -⟩ | ⟨rest', -, rfl⟩
      · exact absurd (he ▸ hy) h
      · exact ⟨mid, y, rest', rfl, hy, hvalue⟩
    · intro pre x post he hwrites
      rcases append_singleton_cases he with ⟨rfl, rfl, -⟩ | ⟨rest, -, hlog⟩
      · exact h hwrites
      · exact hnone pre x rest hlog hwrites
  · intro hleaves
    refine ⟨fun pre x post he hwrites hne => ?_, fun hnone => hleaves.unwritten ?_⟩
    · rcases append_singleton_cases he with ⟨rfl, rfl, -⟩ | ⟨rest, rfl, hlog⟩
      · exact absurd hwrites h
      · obtain ⟨mid, y, rest', rfl, hy, hvalue⟩ := hleaves.followed pre x rest hlog hwrites hne
        exact ⟨mid, y, rest' ++ [a], by simp, hy, hvalue⟩
    · intro pre x post he hwrites
      exact hnone pre x (post ++ [a]) (by rw [he]; simp) hwrites

end LastWrite
