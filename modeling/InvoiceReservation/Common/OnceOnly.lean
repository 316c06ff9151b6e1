import InvoiceReservation.Common.Tx
import Mathlib.Data.List.Nodup
/-!
# Work recorded with its effect

A store takes works one after another, some of which carry an identity.
A work that is done only where its identity is not recorded, and leaves it
recorded, is not done a second time, however often it is attempted: in any
history of such works every identity occurs once.

Before it is done, a work may be inspected without a lock: each statement of
the inspection sees one of the states the store has been in.
-/

namespace Transactions

variable {σ ω ι : Type}

/-- A store, its works and what it records of them, which it does not
forget. -/
structure Store (σ ω ι : Type) where
  effect : ω → σ → σ
  identity? : ω → Option ι
  recorded : σ → ι → Prop
  keeps : ∀ w c i, recorded c i → recorded (effect w c) i

variable (S : Store σ ω ι)

/-- **Works done from one state to another**, none of them under an identity
that is recorded, and each recorded with its effect. -/
inductive Store.Done (c : σ) : List ω → σ → Prop
  | nothing : Done c [] c
  | more {works : List ω} {c' : σ} (w : ω) (h : Done c works c')
      (hnew : ∀ i, S.identity? w = some i → ¬ S.recorded c' i)
      (hrecords : ∀ i, S.identity? w = some i → S.recorded (S.effect w c') i) :
      Done c (works ++ [w]) (S.effect w c')

namespace Store

variable {S} {c c' : σ} {works : List ω} {w : ω} {i : ι}

/-- What has been done is what its works leave one after another. -/
theorem Done.eq_foldl (h : S.Done c works c') : c' = works.foldl (fun c w => S.effect w c) c := by
  induction h with
  | nothing => rfl
  | more w _ _ _ ih => rw [List.foldl_append, ← ih, List.foldl_cons, List.foldl_nil]

theorem Done.recorded (h : S.Done c works c') (hi : i ∈ works.filterMap S.identity?) :
    S.recorded c' i := by
  induction h with
  | nothing => cases hi
  | more w _ _ hrecords ih =>
    rw [List.filterMap_append, List.mem_append] at hi
    rcases hi with hi | hi
    · exact S.keeps w _ i (ih hi)
    · obtain ⟨w', hw', hidentity⟩ := List.mem_filterMap.mp hi
      cases List.mem_singleton.mp hw'
      exact hrecords i hidentity

/-- **No identity's work is done twice.** -/
theorem Done.nodup (h : S.Done c works c') : (works.filterMap S.identity?).Nodup := by
  induction h with
  | nothing => exact List.nodup_nil
  | more w hdone hnew _ ih =>
    rw [List.filterMap_append, List.nodup_append]
    refine ⟨ih, ?_, fun i hi j hj => ?_⟩
    · cases hw : S.identity? w <;> simp [hw]
    · obtain ⟨w', hw', hidentity⟩ := List.mem_filterMap.mp hj
      cases List.mem_singleton.mp hw'
      rintro rfl
      exact hnew i hidentity (hdone.recorded hi)

/-- Nor is one that was recorded at the start. -/
theorem Done.not_recorded (h : S.Done c works c') (hi : i ∈ works.filterMap S.identity?) :
    ¬ S.recorded c i := by
  intro hstart
  suffices hkept : S.recorded c' i ∧ i ∉ works.filterMap S.identity? from hkept.2 hi
  clear hi
  induction h with
  | nothing => exact ⟨hstart, List.not_mem_nil⟩
  | more w _ hnew _ ih =>
    refine ⟨S.keeps w _ i ih.1, fun hi => ?_⟩
    rw [List.filterMap_append, List.mem_append] at hi
    rcases hi with hi | hi
    · exact ih.2 hi
    · obtain ⟨w', hw', hidentity⟩ := List.mem_filterMap.mp hi
      cases List.mem_singleton.mp hw'
      exact hnew i hidentity ih.1

/-- A further work that carries no identity. -/
theorem Done.plain (h : S.Done c works c') (hw : S.identity? w = none) :
    S.Done c (works ++ [w]) (S.effect w c') := by
  refine .more w h (fun i hi => ?_) fun i hi => ?_
  · rw [hw] at hi; cases hi
  · rw [hw] at hi; cases hi

end Store

/-! ## Reading without a lock -/

section Reading

variable {Stmt : Type → Type} {W ε α β : Type} {E : Engine Stmt σ W ε} {seen : σ → Prop}

/-- **What a tree can be answered** where each of its statements sees some
state of a kind, and not all the same. -/
inductive Answered (E : Engine Stmt σ W ε) (seen : σ → Prop) {α : Type} : Tx Stmt ε α → α → Prop
  | done (a : α) : Answered E seen (.pure a) a
  | asked {γ : Type} {s : Stmt γ} {k : γ → Tx Stmt ε α} {c : σ} {b : γ} {ws : List W} {a : α} :
      seen c → E.exec s c = .ok (b, ws) → Answered E seen (k b) a →
      Answered E seen (.exec s k) a

theorem Answered.pure_eq {a a' : α} (h : Answered E seen (Tx.pure a : Tx Stmt ε α) a') :
    a' = a := by
  cases h
  rfl

theorem Answered.exec {s : Stmt β} {k : β → Tx Stmt ε α} {a : α}
    (h : Answered E seen (.exec s k) a) :
    ∃ c b ws, seen c ∧ E.exec s c = .ok (b, ws) ∧ Answered E seen (k b) a := by
  cases h with
  | asked hc hx hk => exact ⟨_, _, _, hc, hx, hk⟩

end Reading

end Transactions
