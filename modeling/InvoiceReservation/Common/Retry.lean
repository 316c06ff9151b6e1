import Mathlib.Data.List.Basic
/-!
# Bounded retries

A call that fails is made again, until one succeeds, one fails with an
error that is thrown on, or the bound is reached. What each call answers is
a parameter. The last call decides what the retrying comes to, and every
call before it failed: `attempts_spec` says so, and proofs about retries
use it alone.
-/

namespace Retries

variable {ε α : Type}

/-- Why retrying stopped: an error that is thrown on, or the last one when
the bound was reached. -/
inductive Stop (ε : Type)
  | thrown (error : ε)
  | exhausted (lastError : ε)
  deriving DecidableEq, Repr

/-- The calls that were made, in order, and what they came to. -/
structure History (ε α : Type) where
  calls : List (Except ε α)
  result : Except (Stop ε) α

variable (fatal : ε → Bool) (fn : Nat → Except ε α)

/-- The calls from one attempt on, of which so many are left after it. -/
def attempts (attempt : Nat) : Nat → History ε α
  | 0 =>
    match fn attempt with
    | .ok a => ⟨[.ok a], .ok a⟩
    | .error e => ⟨[.error e], .error (if fatal e then .thrown e else .exhausted e)⟩
  | left + 1 =>
    match fn attempt with
    | .ok a => ⟨[.ok a], .ok a⟩
    | .error e =>
      if fatal e then ⟨[.error e], .error (.thrown e)⟩
      else
        let rest := attempts (attempt + 1) left
        ⟨.error e :: rest.calls, rest.result⟩

/-- What the last call comes to. -/
def conclude : Except ε α → Except (Stop ε) α
  | .ok a => .ok a
  | .error e => .error (if fatal e then .thrown e else .exhausted e)

variable {fatal fn} {attempt left : Nat}

/-- **The last call decides**, and those before it failed and were retried. -/
theorem attempts_spec : ∃ before last, (attempts fatal fn attempt left).calls = before ++ [last] ∧
    (attempts fatal fn attempt left).result = conclude fatal last ∧ before.length ≤ left ∧
      ∀ call ∈ before, ∃ e, call = .error e ∧ fatal e = false := by
  induction left generalizing attempt with
  | zero =>
    refine ⟨[], fn attempt, ?_, ?_, Nat.le_refl 0, by simp⟩ <;>
      cases h : fn attempt <;> simp [attempts, conclude, h]
  | succ left ih =>
    cases h : fn attempt with
    | ok a => exact ⟨[], .ok a, by simp [attempts, h], by simp [attempts, conclude, h], by simp⟩
    | error e =>
      by_cases hfatal : fatal e = true
      · exact ⟨[], .error e, by simp [attempts, h, hfatal],
          by simp [attempts, conclude, h, hfatal], by simp⟩
      · obtain ⟨before, last, hcalls, hresult, hlength, hbefore⟩ := @ih (attempt + 1)
        refine ⟨.error e :: before, last, ?_, ?_, by simpa using hlength, ?_⟩
        · simp [attempts, h, hfatal, hcalls]
        · simp [attempts, h, hfatal, hresult]
        · exact List.forall_mem_cons.mpr ⟨⟨e, rfl, by simpa using hfatal⟩, hbefore⟩

/-- An error that is thrown on ends the retrying at once. -/
theorem attempts_of_fatal {e : ε} (h : fn attempt = .error e) (hfatal : fatal e = true) :
    attempts fatal fn attempt left = ⟨[.error e], .error (.thrown e)⟩ := by
  cases left <;> simp [attempts, h, hfatal]

/-- A success ends it too. -/
theorem attempts_of_ok {a : α} (h : fn attempt = .ok a) :
    attempts fatal fn attempt left = ⟨[.ok a], .ok a⟩ := by
  cases left <;> simp [attempts, h]

/-- Calls that are all answered alike end as the first does. -/
theorem result_const {answer : Except ε α} :
    (attempts fatal (fun _ => answer) attempt left).result = conclude fatal answer := by
  induction left generalizing attempt with
  | zero => cases answer <;> rfl
  | succ left ih =>
    cases answer with
    | ok a => rfl
    | error e =>
      by_cases hfatal : fatal e = true
      · simp [attempts, conclude, hfatal]
      · simpa [attempts, conclude, hfatal] using @ih (attempt + 1)

theorem length_calls : (attempts fatal fn attempt left).calls.length ≤ left + 1 := by
  obtain ⟨before, last, hcalls, -, hlength, -⟩ := @attempts_spec _ _ fatal fn attempt left
  rw [hcalls, List.length_append, List.length_singleton]
  omega

end Retries
