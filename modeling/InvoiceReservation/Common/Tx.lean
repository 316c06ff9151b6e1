import Mathlib.Data.List.Basic
/-!
# Transactions, as trees of statements

A transaction asks a database one statement at a time and decides the
next from the answer. `Tx` is that tree. `Engine` says what a statement
answers on a state and which row versions it writes, and `run` is the
serial meaning: every statement sees the writes of those before it, and
an error, the transaction's own or the database's, gives no state at
all.

A proof about a run peels it apart with `run_bind_ok` and
`run_perform_ok` and never unfolds the tree.
-/

namespace Transactions

/-- A transaction: an answer, a rollback, or a statement and what is done
with its answer. -/
inductive Tx (Stmt : Type → Type) (ε α : Type) : Type 1
  | pure (a : α)
  | throw (e : ε)
  | exec {β : Type} (s : Stmt β) (k : β → Tx Stmt ε α)

namespace Tx

variable {Stmt : Type → Type} {ε α β : Type}

/-- Run one transaction's tree into another. -/
def bind : Tx Stmt ε α → (α → Tx Stmt ε β) → Tx Stmt ε β
  | .pure a, f => f a
  | .throw e, _ => .throw e
  | .exec s k, f => .exec s fun b => (k b).bind f

instance : Monad (Tx Stmt ε) where
  pure := .pure
  bind := .bind

/-- A single statement. -/
def perform (s : Stmt α) : Tx Stmt ε α := .exec s .pure

@[simp] theorem pure_bind' (a : α) (f : α → Tx Stmt ε β) : (Tx.pure a >>= f) = f a := rfl

@[simp] theorem throw_bind (e : ε) (f : α → Tx Stmt ε β) :
    ((Tx.throw e : Tx Stmt ε α) >>= f) = Tx.throw e := rfl

@[simp] theorem exec_bind {γ : Type} (s : Stmt γ) (k : γ → Tx Stmt ε α)
    (f : α → Tx Stmt ε β) : (Tx.exec s k >>= f) = Tx.exec s fun b => k b >>= f := rfl

@[simp] theorem perform_bind (s : Stmt α) (f : α → Tx Stmt ε β) :
    (perform s >>= f) = Tx.exec s f := rfl

theorem pure_eq (a : α) : (Pure.pure a : Tx Stmt ε α) = Tx.pure a := rfl

/-- The tree with every answer mapped. -/
def map (g : α → β) (t : Tx Stmt ε α) : Tx Stmt ε β := t >>= fun a => .pure (g a)

@[simp] theorem map_exec {γ : Type} (g : α → β) (s : Stmt γ) (k : γ → Tx Stmt ε α) :
    (Tx.exec s k).map g = .exec s fun b => (k b).map g := rfl

theorem map_map {γ : Type} (g : α → β) (f : β → γ) (t : Tx Stmt ε α) :
    (t.map g).map f = t.map fun a => f (g a) := by
  induction t with
  | pure a => rfl
  | throw e => rfl
  | exec s k ih => simp only [map_exec, ih]

theorem map_bind {γ : Type} (g : β → γ) (t : Tx Stmt ε α) (k : α → Tx Stmt ε β) :
    (t >>= k).map g = t >>= fun a => (k a).map g := by
  induction t with
  | pure a => rfl
  | throw e => rfl
  | exec s k' ih => simp only [exec_bind, map_exec, ih]

/-- Every error a transaction throws itself is one of those `P` names. -/
def Throws (P : ε → Prop) : Tx Stmt ε α → Prop
  | .pure _ => True
  | .throw e => P e
  | .exec _ k => ∀ b, Throws P (k b)

theorem Throws.bind {P : ε → Prop} {t : Tx Stmt ε α} {f : α → Tx Stmt ε β} (h : t.Throws P)
    (hf : ∀ a, (f a).Throws P) : (t >>= f).Throws P := by
  induction t with
  | pure a => exact hf a
  | throw _ => exact h
  | exec s k ih => exact fun b => ih b (h b)

theorem Throws.map {P : ε → Prop} {t : Tx Stmt ε α} {g : α → β} (h : t.Throws P) :
    (t.map g).Throws P :=
  h.bind fun _ => trivial

end Tx

/-- What a database answers. `exec` gives a statement's answer on the
state the statement sees and the row versions it writes, or the error
that ends its transaction; `apply` is a state with one row version more. -/
structure Engine (Stmt : Type → Type) (σ W ε : Type) where
  exec : {β : Type} → Stmt β → σ → Except ε (β × List W)
  apply : W → σ → σ

namespace Engine

variable {Stmt : Type → Type} {σ W ε α β : Type} (E : Engine Stmt σ W ε)

/-- A state with a transaction's writes, in the order they were made. -/
def applyAll (ws : List W) (c : σ) : σ := ws.foldl (fun c w => E.apply w c) c

@[simp] theorem applyAll_nil (c : σ) : E.applyAll [] c = c := rfl

@[simp] theorem applyAll_cons (w : W) (ws : List W) (c : σ) :
    E.applyAll (w :: ws) c = E.applyAll ws (E.apply w c) := rfl

theorem applyAll_append (ws₁ ws₂ : List W) (c : σ) :
    E.applyAll (ws₁ ++ ws₂) c = E.applyAll ws₂ (E.applyAll ws₁ c) := List.foldl_append

/-- **The serial meaning of a transaction.** -/
def run : Tx Stmt ε α → σ → Except ε (α × σ)
  | .pure a, c => .ok (a, c)
  | .throw e, _ => .error e
  | .exec s k, c =>
    match E.exec s c with
    | .error e => .error e
    | .ok (b, ws) => run (k b) (E.applyAll ws c)

/-- What a transaction leaves behind: its state where it commits, and the
state it began in where it does not. -/
def effect (t : Tx Stmt ε α) (c : σ) : σ :=
  match E.run t c with
  | .ok (_, c') => c'
  | .error _ => c

variable {E} {c c' : σ} {t : Tx Stmt ε α}

theorem run_pure_ok {a a' : α} : E.run (Tx.pure a) c = .ok (a', c') ↔ a = a' ∧ c = c' := by
  simp [run]

theorem run_throw_ok {e : ε} {a : α} : ¬ E.run (Tx.throw e) c = .ok (a, c') := by
  simp [run]

theorem run_exec_ok {s : Stmt β} {k : β → Tx Stmt ε α} {a : α} :
    E.run (.exec s k) c = .ok (a, c') ↔
      ∃ b ws, E.exec s c = .ok (b, ws) ∧ E.run (k b) (E.applyAll ws c) = .ok (a, c') := by
  simp only [run]
  cases h : E.exec s c with
  | error e => simp
  | ok r => obtain ⟨b, ws⟩ := r; simp

/-- A sequence is run piece by piece. -/
theorem run_bind {f : α → Tx Stmt ε β} :
    E.run (t >>= f) c =
      match E.run t c with
      | .error e => .error e
      | .ok (a, c₁) => E.run (f a) c₁ := by
  induction t generalizing c with
  | pure a => rfl
  | throw e => rfl
  | exec s k ih =>
    simp only [Tx.exec_bind, run]
    cases E.exec s c with
    | error e => rfl
    | ok r => exact ih r.1

/-- **A committed sequence is two committed runs.** -/
theorem run_bind_ok {f : α → Tx Stmt ε β} {b : β} :
    E.run (t >>= f) c = .ok (b, c') ↔
      ∃ a c₁, E.run t c = .ok (a, c₁) ∧ E.run (f a) c₁ = .ok (b, c') := by
  induction t generalizing c with
  | pure a => simp [run]
  | throw e => simp [run]
  | exec s k ih =>
    simp only [Tx.exec_bind, run_exec_ok, ih]
    constructor
    · rintro ⟨b, ws, hx, a, c₁, ha, hf⟩; exact ⟨a, c₁, ⟨b, ws, hx, ha⟩, hf⟩
    · rintro ⟨a, c₁, ⟨b, ws, hx, ha⟩, hf⟩; exact ⟨b, ws, hx, a, c₁, ha, hf⟩

theorem run_perform_ok {s : Stmt β} {b : β} :
    E.run (Tx.perform s) c = .ok (b, c') ↔
      ∃ ws, E.exec s c = .ok (b, ws) ∧ c' = E.applyAll ws c := by
  simp only [Tx.perform, run_exec_ok, run_pure_ok]
  constructor
  · rintro ⟨b', ws, hx, rfl, rfl⟩; exact ⟨ws, hx, rfl⟩
  · rintro ⟨ws, hx, rfl⟩; exact ⟨b, ws, hx, rfl, rfl⟩

theorem run_map_ok {g : α → β} {b : β} :
    E.run (t.map g) c = .ok (b, c') ↔ ∃ a, E.run t c = .ok (a, c') ∧ g a = b := by
  simp only [Tx.map, run_bind_ok, run_pure_ok]
  constructor
  · rintro ⟨a, c₁, h, hb, rfl⟩; exact ⟨a, h, hb⟩
  · rintro ⟨a, h, hb⟩; exact ⟨a, c', h, hb, rfl⟩

theorem run_map_error {g : α → β} {e : ε} (h : E.run t c = .error e) :
    E.run (t.map g) c = .error e := by
  rw [Tx.map, run_bind, h]

theorem effect_of_run_ok {a : α} (h : E.run t c = .ok (a, c')) : E.effect t c = c' := by
  simp [effect, h]

theorem effect_of_run_error {e : ε} (h : E.run t c = .error e) : E.effect t c = c := by
  simp [effect, h]

/-- What a transaction answers is nothing to the state it leaves. -/
theorem effect_map {g : α → β} : E.effect (t.map g) c = E.effect t c := by
  cases hmap : E.run (t.map g) c with
  | ok r =>
    obtain ⟨a, hrun, -⟩ := run_map_ok.mp hmap
    rw [effect_of_run_ok hmap, effect_of_run_ok hrun]
  | error e =>
    cases hrun : E.run t c with
    | ok r => rw [run_map_ok.mpr ⟨r.1, hrun, rfl⟩] at hmap; cases hmap
    | error e' => rw [effect_of_run_error hmap, effect_of_run_error hrun]

/-- A committed run leaves the state with its writes. -/
theorem exists_writes {a : α} (h : E.run t c = .ok (a, c')) : ∃ ws, c' = E.applyAll ws c := by
  induction t generalizing c with
  | pure _ => exact ⟨[], (run_pure_ok.mp h).2.symm⟩
  | throw _ => exact absurd h run_throw_ok
  | exec s k ih =>
    obtain ⟨b, ws, -, hk⟩ := run_exec_ok.mp h
    obtain ⟨ws', rfl⟩ := ih b hk
    exact ⟨ws ++ ws', (E.applyAll_append ws ws' c).symm⟩

/-- **What a run fails with** is what its transaction throws, or what one of
its statements fails with. -/
theorem run_error {P : ε → Prop} (hexec : ∀ {β : Type} (s : Stmt β) c e,
    E.exec s c = .error e → P e) (ht : t.Throws P) {e : ε} (h : E.run t c = .error e) : P e := by
  induction t generalizing c with
  | pure a => cases h
  | throw e' =>
    cases h
    exact ht
  | exec s k ih =>
    rw [run] at h
    cases hx : E.exec s c with
    | error e' =>
      simp only [hx, Except.error.injEq] at h
      exact h ▸ hexec s c e' hx
    | ok r =>
      simp only [hx] at h
      exact ih r.1 (ht r.1) h

/-- **The rule for what every statement keeps**: a committed run keeps it. -/
theorem run_keeps {P : σ → Prop} (hexec : ∀ {β : Type} (s : Stmt β) c b ws, P c →
    E.exec s c = .ok (b, ws) → P (E.applyAll ws c)) {a : α} (hc : P c)
    (h : E.run t c = .ok (a, c')) : P c' := by
  induction t generalizing c with
  | pure _ => exact (run_pure_ok.mp h).2 ▸ hc
  | throw _ => exact absurd h run_throw_ok
  | exec s k ih =>
    obtain ⟨b, ws, hx, hk⟩ := run_exec_ok.mp h
    exact ih b (hexec s c b ws hc hx) hk

/-- A property that every write keeps is kept by any writes. -/
theorem applyAll_mono {P : σ → Prop} (hw : ∀ w c, P c → P (E.apply w c)) {ws : List W} (hc : P c) :
    P (E.applyAll ws c) := by
  induction ws generalizing c with
  | nil => exact hc
  | cons w ws ih => exact ih (hw w c hc)

/-- **The rule for what only grows.** A property that every write keeps is
kept by any transaction. -/
theorem effect_mono {P : σ → Prop} (hw : ∀ w c, P c → P (E.apply w c)) (hc : P c) :
    P (E.effect t c) := by
  cases hr : E.run t c with
  | ok r =>
    obtain ⟨a, c'⟩ := r
    obtain ⟨ws, rfl⟩ := exists_writes hr
    rw [effect_of_run_ok hr]
    exact applyAll_mono hw hc
  | error e => rw [effect_of_run_error hr]; exact hc

/-- A property of the committed states survives a transaction, committed
or rolled back. -/
theorem effect_induct {P : σ → Prop} (hc : P c)
    (h : ∀ a c', E.run t c = .ok (a, c') → P c') : P (E.effect t c) := by
  cases hr : E.run t c with
  | ok r => obtain ⟨a, c'⟩ := r; rw [effect_of_run_ok hr]; exact h a c' hr
  | error e => rw [effect_of_run_error hr]; exact hc

end Engine

end Transactions
