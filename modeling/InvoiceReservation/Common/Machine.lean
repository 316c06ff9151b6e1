import Mathlib.Data.List.Induction
/-!
# Machines

A machine has states it can start in and actions, each of which is
possible in a state or not. What holds at the start and is kept by every
action holds in every reached state.
-/

namespace Machines

/-- A machine. `step` gives the state an action leads to, where the action
is possible. -/
structure Machine (σ α : Type) where
  start : σ → Prop
  step : α → σ → Option σ

namespace Machine

variable {σ α : Type} (M : Machine σ α)

/-- The states a run of the machine comes through. -/
inductive Reached : σ → Prop
  | start {s : σ} (h : M.start s) : Reached s
  | step {s s' : σ} (a : α) (h : Reached s) (hs : M.step a s = some s') : Reached s'

/-- A run of given actions, each of them possible where it is taken. -/
def run : List α → σ → Option σ
  | [], s => some s
  | a :: actions, s => (M.step a s).bind (run actions)

/-- A state a run comes through. -/
def Visits (actions : List α) (s t : σ) : Prop :=
  ∃ before after, actions = before ++ after ∧ M.run before s = some t

/-- An action a run takes, and the state it takes it in. -/
def Takes (actions : List α) (s : σ) (a : α) (t : σ) : Prop :=
  ∃ before after, actions = before ++ a :: after ∧ M.run before s = some t

variable {M} {s s' s'' : σ} {a : α} {actions later : List α}

/-- **The invariant rule.** -/
theorem Reached.induct {P : σ → Prop} (hstart : ∀ s, M.start s → P s)
    (hstep : ∀ s s' a, P s → M.step a s = some s' → P s') (h : M.Reached s) : P s := by
  induction h with
  | start h => exact hstart _ h
  | step a _ hs ih => exact hstep _ _ a ih hs

@[simp] theorem run_nil : M.run [] s = some s := rfl

theorem run_cons : M.run (a :: actions) s = (M.step a s).bind (M.run actions) := rfl

theorem run_cons_of (h : M.step a s = some s') : M.run (a :: actions) s = M.run actions s' := by
  rw [run_cons, h]
  rfl

/-- Runs are composed. -/
theorem run_append (h : M.run actions s = some s') :
    M.run (actions ++ later) s = M.run later s' := by
  induction actions generalizing s with
  | nil =>
    cases h
    rfl
  | cons a actions ih =>
    rw [run_cons] at h
    obtain ⟨t, ht, hrest⟩ := Option.bind_eq_some_iff.mp h
    rw [List.cons_append, run_cons_of ht]
    exact ih hrest

/-- What a run comes to is reached. -/
theorem Reached.run (h : M.Reached s) (hr : M.run actions s = some s') : M.Reached s' := by
  induction actions generalizing s with
  | nil =>
    cases hr
    exact h
  | cons a actions ih =>
    rw [run_cons] at hr
    obtain ⟨t, ht, hrest⟩ := Option.bind_eq_some_iff.mp hr
    exact ih (h.step a ht) hrest

/-- A run can be cut in two. -/
theorem run_append_eq_some (h : M.run (actions ++ later) s = some s') :
    ∃ t, M.run actions s = some t ∧ M.run later t = some s' := by
  induction actions generalizing s with
  | nil => exact ⟨s, rfl, h⟩
  | cons a actions ih =>
    rw [List.cons_append, run_cons] at h
    obtain ⟨t, ht, hrest⟩ := Option.bind_eq_some_iff.mp h
    obtain ⟨t', hactions, hlater⟩ := ih hrest
    exact ⟨t', by rw [run_cons_of ht, hactions], hlater⟩

/-- The action a run takes leads to a state it visits. -/
theorem Takes.step {t : σ} (h : M.Takes actions s a t) (hr : M.run actions s = some s') :
    ∃ t', M.step a t = some t' ∧ M.Visits actions s t' := by
  obtain ⟨before, after, rfl, hbefore⟩ := h
  obtain ⟨t₁, ht₁, hrest⟩ := run_append_eq_some hr
  rw [hbefore] at ht₁
  cases ht₁
  rw [run_cons] at hrest
  obtain ⟨t', ht', -⟩ := Option.bind_eq_some_iff.mp hrest
  refine ⟨t', ht', before ++ [a], after, by simp, ?_⟩
  rw [run_append hbefore, run_cons_of ht', run_nil]

/-- **The invariant rule of one run**, each of whose actions may be known
to be taken in a state that allows it. -/
theorem Visits.induct {P : σ → Prop} {t : σ} (h : M.Visits actions s t) (hs : P s)
    (hstep : ∀ a t t', M.Takes actions s a t → P t → M.step a t = some t' → P t') : P t := by
  obtain ⟨before, after, rfl, hbefore⟩ := h
  induction before using List.reverseRecOn generalizing t after with
  | nil =>
    cases hbefore
    exact hs
  | append_singleton before a ih =>
    obtain ⟨t₁, ht₁, hlast⟩ := run_append_eq_some hbefore
    rw [run_cons] at hlast
    obtain ⟨t', ht', hnil⟩ := Option.bind_eq_some_iff.mp hlast
    cases hnil
    have htakes : M.Takes (before ++ [a] ++ after) s a t₁ := ⟨before, after, by simp, ht₁⟩
    refine hstep a t₁ t htakes (ih (a :: after) ht₁ fun b u u' hu hPu hb => ?_) ht'
    exact hstep b u u' (by simpa using hu) hPu hb

/-! ## Actions that stand for others -/

variable {β : Type} {f : β → Option α} {stands : List β}

/-- The machine of actions that stand for actions of `M`, each of them for
one or for none. -/
def via (M : Machine σ α) (f : β → Option α) : Machine σ β where
  start := M.start
  step b s := (f b).bind (M.step · s)

/-- **A run of what stands for actions is a run of the actions.** -/
theorem run_via (h : (M.via f).run stands s = some s') :
    ∃ actions, stands.map f = actions.map some ∧ M.run actions s = some s' := by
  induction stands generalizing s with
  | nil => exact ⟨[], rfl, h⟩
  | cons b stands ih =>
    obtain ⟨t, ht, hrest⟩ := Option.bind_eq_some_iff.mp h
    obtain ⟨a, ha, hstep⟩ := Option.bind_eq_some_iff.mp ht
    obtain ⟨actions, hactions, hrun⟩ := ih hrest
    exact ⟨a :: actions, by rw [List.map_cons, List.map_cons, ha, hactions],
      by rw [run_cons_of hstep, hrun]⟩

end Machine

end Machines
