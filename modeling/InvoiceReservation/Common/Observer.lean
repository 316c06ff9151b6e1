import InvoiceReservation.Common.Tx
/-!
# What one observer can tell

A transaction over the part of a state that one observer owns. An
`Observer` says which states are alike to it, which statements ask for no
more than its part, and which writes stay in that part. A transaction of
such statements alone cannot tell two states that are alike apart: it
gives the same answer on both and makes the same writes, all in the part,
so that the states it leaves are alike again.
-/

namespace Transactions

variable {Stmt : Type → Type} {σ W ε α β γ : Type} {E : Engine Stmt σ W ε}

/-- An observer of a database. -/
structure Observer (E : Engine Stmt σ W ε) where
  alike : σ → σ → Prop
  admits : {β : Type} → Stmt β → Prop
  own : W → Prop
  exec_congr : ∀ {β : Type} {s : Stmt β} {c c'}, admits s → alike c c' → E.exec s c = E.exec s c'
  exec_own : ∀ {β : Type} {s : Stmt β} {c c' b ws}, admits s → alike c c' →
    E.exec s c = .ok (b, ws) → ∀ w ∈ ws, own w
  apply : ∀ {w c c'}, own w → alike c c' → alike (E.apply w c) (E.apply w c')

namespace Observer

variable (O : Observer E) {c c' : σ} {ws : List W} {t : Tx Stmt ε α}

/-- Every statement of a transaction is one the observer admits. -/
def Confined : Tx Stmt ε α → Prop
  | .pure _ => True
  | .throw _ => True
  | .exec s k => O.admits s ∧ ∀ b, Confined (k b)

variable {O}

theorem Confined.bind {f : α → Tx Stmt ε β} (h : O.Confined t) (hf : ∀ a, O.Confined (f a)) :
    O.Confined (t >>= f) := by
  induction t with
  | pure a => exact hf a
  | throw _ => trivial
  | exec s k ih => exact ⟨h.1, fun b => ih b (h.2 b)⟩

/-- A single statement. -/
theorem confined_perform {s : Stmt α} (h : O.admits s) :
    O.Confined (Tx.perform s : Tx Stmt ε α) :=
  ⟨h, fun _ => trivial⟩

/-- Writes of the observer's part keep states alike. -/
theorem applyAll_alike (hown : ∀ w ∈ ws, O.own w) (h : O.alike c c') :
    O.alike (E.applyAll ws c) (E.applyAll ws c') := by
  induction ws generalizing c c' with
  | nil => exact h
  | cons w ws ih =>
    exact ih (fun x hx => hown x (List.mem_cons_of_mem _ hx))
      (O.apply (hown w List.mem_cons_self) h)

/-- **The frame rule.** What no write of the observer's part changes is not
changed by any number of them. -/
theorem applyAll_frame {f : σ → γ}
    (hf : ∀ w c c', O.own w → O.alike c c' → f (E.apply w c) = f c)
    (hown : ∀ w ∈ ws, O.own w) (h : O.alike c c') : f (E.applyAll ws c) = f c := by
  induction ws generalizing c c' with
  | nil => rfl
  | cons w ws ih =>
    have hw := hown w List.mem_cons_self
    rw [E.applyAll_cons, ih (fun x hx => hown x (List.mem_cons_of_mem _ hx)) (O.apply hw h)]
    exact hf w c c' hw h

/-- Two runs that fail alike, or commit with one answer and the same writes
of the observer's part. -/
def SameRun (O : Observer E) (c c' : σ) (r r' : Except ε (α × σ)) : Prop :=
  (∃ e, r = .error e ∧ r' = .error e) ∨
    ∃ a ws, (∀ w ∈ ws, O.own w) ∧ r = .ok (a, E.applyAll ws c) ∧ r' = .ok (a, E.applyAll ws c')

/-- **The two-run rule.** From states that are alike a confined transaction
runs alike. -/
theorem Confined.run (ht : O.Confined t) (h : O.alike c c') :
    O.SameRun c c' (E.run t c) (E.run t c') := by
  induction t generalizing c c' with
  | pure a => exact Or.inr ⟨a, [], by simp, rfl, rfl⟩
  | throw e => exact Or.inl ⟨e, rfl, rfl⟩
  | exec s k ih =>
    have hcongr := O.exec_congr ht.1 h
    cases hx : E.exec s c with
    | error e =>
      refine Or.inl ⟨e, ?_, ?_⟩
      · simp only [Engine.run, hx]
      · simp only [Engine.run, ← hcongr, hx]
    | ok r =>
      obtain ⟨b, ws⟩ := r
      have hown := O.exec_own ht.1 h hx
      have hleft : E.run (.exec s k) c = E.run (k b) (E.applyAll ws c) := by
        simp only [Engine.run, hx]
      have hright : E.run (.exec s k) c' = E.run (k b) (E.applyAll ws c') := by
        simp only [Engine.run, ← hcongr, hx]
      rw [hleft, hright]
      rcases ih b (ht.2 b) (applyAll_alike hown h) with hfail | ⟨a, ws', hown', ha, ha'⟩
      · exact Or.inl hfail
      · refine Or.inr ⟨a, ws ++ ws', fun w hw => ?_, ?_, ?_⟩
        · exact (List.mem_append.mp hw).elim (hown w) (hown' w)
        · rw [ha, E.applyAll_append]
        · rw [ha', E.applyAll_append]

end Observer

end Transactions
