import InvoiceReservation.Common.Tx
import Mathlib.Logic.Function.Basic
import Mathlib.Logic.Relation
/-!
# Interleaved transactions

Any number of transactions run at once, one statement at a time. A
statement sees the latest committed state under its own transaction's
writes (READ COMMITTED), and takes locks that are kept until the
transaction ends: those `takes` names (`SELECT … FOR UPDATE`) and one
for every key it writes, an inserted unique key included. A statement
whose locks another transaction holds does not run until they are free.
A commit applies all writes at once; a transaction may also end at any
point with no effect, which covers a refusal, an error of the database
and a crash.

`history` is a ghost: the committed transactions in commit order, with
what they answered.
-/

namespace Transactions

/-- The keys of a database. A statement's answer depends on the keys it
`reads`, where they can be listed; a row version touches the keys it is
filed under. -/
structure Locks (Stmt : Type → Type) (W K : Type) where
  reads : {β : Type} → Stmt β → Option (List K)
  takes : {β : Type} → Stmt β → β → List K
  keys : W → List K

variable {Stmt : Type → Type} {σ W ε ρ ι K : Type}

/-- The locks a statement takes, given its answer and its writes. -/
def Locks.taken (L : Locks Stmt W K) {β : Type} (s : Stmt β) (b : β) (ws : List W) : List K :=
  L.takes s b ++ ws.flatMap L.keys

theorem Locks.keys_subset_taken {L : Locks Stmt W K} {β : Type} {s : Stmt β} {b : β}
    {ws : List W} {w : W} {x : K} (hw : w ∈ ws) (hx : x ∈ L.keys w) : x ∈ L.taken s b ws :=
  List.mem_append_right _ (List.mem_flatMap.mpr ⟨w, hw, hx⟩)

/-- A transaction under way: what it has still to do, what it has written
and what it has locked. -/
structure Active (Stmt : Type → Type) (W ε ρ ι K : Type) where
  label : ι
  rest : Tx Stmt ε ρ
  writes : List W
  held : List K

/-- The committed state, the transactions under way, and the ghost history. -/
structure Sys (Stmt : Type → Type) (σ W ε ρ ι K : Type) where
  committed : σ
  active : ℕ → Option (Active Stmt W ε ρ ι K)
  history : List (ι × ρ)

/-- Nothing under way. -/
def Sys.start (c : σ) : Sys Stmt σ W ε ρ ι K := ⟨c, fun _ => none, []⟩

section Machine

variable (E : Engine Stmt σ W ε) (L : Locks Stmt W K) (prog : ι → Tx Stmt ε ρ)

/-- What a transaction under way sees. -/
def Sys.view (sys : Sys Stmt σ W ε ρ ι K) (a : Active Stmt W ε ρ ι K) : σ :=
  E.applyAll a.writes sys.committed

/-- **One step of the interleaving.** -/
inductive Step (sys : Sys Stmt σ W ε ρ ι K) : Sys Stmt σ W ε ρ ι K → Prop
  /-- A transaction begins. -/
  | begin (t : ℕ) (i : ι) :
      sys.active t = none →
      Step sys { sys with active := Function.update sys.active t (some ⟨i, prog i, [], []⟩) }
  /-- A statement runs: no other transaction holds a lock it takes. -/
  | exec (t : ℕ) (a : Active Stmt W ε ρ ι K) {β : Type} (s : Stmt β) (k : β → Tx Stmt ε ρ)
      (b : β) (ws : List W) :
      sys.active t = some a → a.rest = .exec s k → E.exec s (sys.view E a) = .ok (b, ws) →
      (∀ t' a', t' ≠ t → sys.active t' = some a' → ∀ x ∈ L.taken s b ws, x ∉ a'.held) →
      Step sys { sys with
        active := Function.update sys.active t
          (some ⟨a.label, k b, a.writes ++ ws, a.held ++ L.taken s b ws⟩) }
  /-- A transaction ends with no effect. -/
  | abort (t : ℕ) (a : Active Stmt W ε ρ ι K) :
      sys.active t = some a →
      Step sys { sys with active := Function.update sys.active t none }
  /-- A transaction commits. -/
  | commit (t : ℕ) (a : Active Stmt W ε ρ ι K) (r : ρ) :
      sys.active t = some a → a.rest = .pure r →
      Step sys ⟨sys.view E a, Function.update sys.active t none, sys.history ++ [(a.label, r)]⟩

/-- Any number of steps. -/
def Steps : Sys Stmt σ W ε ρ ι K → Sys Stmt σ W ε ρ ι K → Prop :=
  Relation.ReflTransGen (Step E L prog)

/-- The states an interleaving from `c` can reach. -/
def Reachable (c : σ) (sys : Sys Stmt σ W ε ρ ι K) : Prop := Steps E L prog (Sys.start c) sys

variable {E L prog}

/-- **The invariant rule.** What holds at the start and survives every
step holds of every reachable state. -/
theorem Reachable.induct {P : Sys Stmt σ W ε ρ ι K → Prop} {c : σ} {sys : Sys Stmt σ W ε ρ ι K}
    (h : Reachable E L prog c sys) (h0 : P (Sys.start c))
    (hstep : ∀ sys sys', Reachable E L prog c sys → P sys → Step E L prog sys sys' → P sys') :
    P sys := by
  have h' : Relation.ReflTransGen (Step E L prog) (Sys.start c) sys := h
  induction h' with
  | refl => exact h0
  | tail hr hs ih => exact hstep _ _ hr (ih hr) hs

/-- **The rule for what only grows.** A property that every write keeps
holds of every committed state. -/
theorem Reachable.mono {P : σ → Prop} {c : σ} {sys : Sys Stmt σ W ε ρ ι K}
    (hw : ∀ w c, P c → P (E.apply w c)) (hc : P c) (h : Reachable E L prog c sys) :
    P sys.committed := by
  refine h.induct (P := fun sys => P sys.committed) hc fun sys sys' _ ih hs => ?_
  cases hs with
  | begin | exec | abort => exact ih
  | commit t a r _ _ => exact Engine.applyAll_mono hw ih

/-- An entry of the table of transactions, after one of them changed. -/
theorem update_active {f : ℕ → Option (Active Stmt W ε ρ ι K)} {t u : ℕ}
    {o : Option (Active Stmt W ε ρ ι K)} {a : Active Stmt W ε ρ ι K}
    (h : Function.update f t o u = some a) : u = t ∧ o = some a ∨ u ≠ t ∧ f u = some a := by
  by_cases hu : u = t
  · subst hu; exact Or.inl ⟨rfl, by simpa using h⟩
  · exact Or.inr ⟨hu, by simpa [hu] using h⟩

/-- And after one of them ended. -/
theorem finish_active {f : ℕ → Option (Active Stmt W ε ρ ι K)} {t u : ℕ}
    {a : Active Stmt W ε ρ ι K} (h : Function.update f t none u = some a) :
    u ≠ t ∧ f u = some a := by
  rcases update_active h with ⟨-, he⟩ | hother
  · cases he
  · exact hother

/-- **The rule for what is under way.** What holds of a transaction that
begins, and survives its own statements and every step of the system, holds
of every transaction under way. -/
theorem Reachable.each {P : Sys Stmt σ W ε ρ ι K → Active Stmt W ε ρ ι K → Prop} {c : σ}
    {sys : Sys Stmt σ W ε ρ ι K} (h : Reachable E L prog c sys)
    (hbegin : ∀ sys i, P sys ⟨i, prog i, [], []⟩)
    (hexec : ∀ sys a {β : Type} (s : Stmt β) (k : β → Tx Stmt ε ρ) b ws,
      Reachable E L prog c sys → P sys a → a.rest = .exec s k →
      E.exec s (sys.view E a) = .ok (b, ws) →
      P sys ⟨a.label, k b, a.writes ++ ws, a.held ++ L.taken s b ws⟩)
    (hstep : ∀ sys sys' a, P sys a → Step E L prog sys sys' → P sys' a) :
    ∀ t a, sys.active t = some a → P sys a := by
  refine h.induct (P := fun sys => ∀ t a, sys.active t = some a → P sys a)
    (fun t a ha => by cases ha) fun sys sys' hr ih hs => ?_
  have hstay := fun a ha => hstep sys sys' a ha hs
  intro u a' hu
  cases hs with
  | begin t i hnone =>
    rcases update_active hu with ⟨-, he⟩ | ⟨-, hu⟩
    · cases he
      exact hstay _ (hbegin sys i)
    · exact hstay _ (ih u a' hu)
  | exec t a s k b ws ha hrest hx hfree =>
    rcases update_active hu with ⟨-, he⟩ | ⟨-, hu⟩
    · cases he
      exact hstay _ (hexec sys a s k b ws hr (ih t a ha) hrest hx)
    · exact hstay _ (ih u a' hu)
  | abort t a ha =>
    obtain ⟨-, hu⟩ := finish_active hu
    exact hstay _ (ih u a' hu)
  | commit t a r ha hrest =>
    obtain ⟨-, hu⟩ := finish_active hu
    exact hstay _ (ih u a' hu)

theorem Reachable.trans {c : σ} {sys sys' : Sys Stmt σ W ε ρ ι K}
    (h : Reachable E L prog c sys) (h' : Steps E L prog sys sys') : Reachable E L prog c sys' :=
  Relation.ReflTransGen.trans h h'

/-- The history only grows. -/
theorem Steps.history {sys sys' : Sys Stmt σ W ε ρ ι K} (h : Steps E L prog sys sys') :
    ∃ later, sys'.history = sys.history ++ later := by
  induction h with
  | refl => exact ⟨[], by simp⟩
  | tail _ hs ih =>
    obtain ⟨later, hl⟩ := ih
    cases hs with
    | begin | exec | abort => exact ⟨later, hl⟩
    | commit t a r => exact ⟨later ++ [(a.label, r)], by simp [hl]⟩

/-! ## Serial runs -/

/-- A transaction alone in the machine can run to its end. -/
theorem Steps.finish {sys : Sys Stmt σ W ε ρ ι K} {a : Active Stmt W ε ρ ι K} {t : ℕ} {r : ρ}
    {c' : σ} (ha : sys.active t = some a) (halone : ∀ u, u ≠ t → sys.active u = none)
    (hrun : E.run a.rest (sys.view E a) = .ok (r, c')) :
    Steps E L prog sys ⟨c', fun _ => none, sys.history ++ [(a.label, r)]⟩ := by
  obtain ⟨i, rest, writes, held⟩ := a
  induction rest generalizing sys writes held with
  | pure r' =>
    obtain ⟨rfl, rfl⟩ := Engine.run_pure_ok.mp hrun
    refine Relation.ReflTransGen.single ?_
    have hnone : Function.update sys.active t none = fun _ => none := by
      funext u
      by_cases hu : u = t
      · simp [hu]
      · simp [hu, halone u hu]
    rw [← hnone]
    exact Step.commit t _ r' ha rfl
  | throw e => exact absurd hrun Engine.run_throw_ok
  | exec s k ih =>
    obtain ⟨b, ws, hx, hk⟩ := Engine.run_exec_ok.mp hrun
    refine Relation.ReflTransGen.head (Step.exec t _ s k b ws ha rfl hx fun u a' hu ha' => ?_) ?_
    · rw [halone u hu] at ha'; cases ha'
    · refine ih b (fun u hu => ?_) (writes ++ ws) (held ++ L.taken s b ws) (by simp) ?_
      · simp [hu, halone u hu]
      · rw [Sys.view, E.applyAll_append]; exact hk

/-- **Serial runs are interleavings.** Where nothing is under way, a
transaction that commits can begin and run to its end. -/
theorem Reachable.run {c c₁ c' : σ} {history : List (ι × ρ)} {i : ι} {r : ρ}
    (h : Reachable E L prog c ⟨c₁, fun _ => none, history⟩)
    (hrun : E.run (prog i) c₁ = .ok (r, c')) :
    Reachable E L prog c ⟨c', fun _ => none, history ++ [(i, r)]⟩ := by
  refine h.trans (Relation.ReflTransGen.head (Step.begin 0 i rfl) ?_)
  exact Steps.finish (a := ⟨i, prog i, [], []⟩) (t := 0) (by simp) (fun u hu => by simp [hu]) hrun

variable (E prog) in
/-- Transactions one after another, with what they answered, where all of
them commit. -/
def runAll : List ι → σ → Option (List (ι × ρ) × σ)
  | [], c => some ([], c)
  | i :: is, c =>
    match E.run (prog i) c with
    | .error _ => none
    | .ok (r, c') => (runAll is c').map fun (later, c'') => ((i, r) :: later, c'')

/-- Where nothing is under way, transactions that all commit can run one
after another. -/
theorem Reachable.runAll {c c₁ c' : σ} {history later : List (ι × ρ)} {is : List ι}
    (h : Reachable E L prog c ⟨c₁, fun _ => none, history⟩)
    (hrun : Transactions.runAll E prog is c₁ = some (later, c')) :
    Reachable E L prog c ⟨c', fun _ => none, history ++ later⟩ ∧ later.map Prod.fst = is := by
  induction is generalizing c₁ history later with
  | nil =>
    cases hrun
    exact ⟨by simpa using h, rfl⟩
  | cons i is ih =>
    rw [Transactions.runAll] at hrun
    cases hi : E.run (prog i) c₁ with
    | error e => rw [hi] at hrun; cases hrun
    | ok r =>
      obtain ⟨r, c₂⟩ := r
      rw [hi] at hrun
      obtain ⟨⟨rest, c''⟩, hrest, he⟩ := Option.map_eq_some_iff.mp hrun
      cases he
      obtain ⟨hreached, hfst⟩ := ih (h.run hi) hrest
      exact ⟨by simpa using hreached, by simp [hfst]⟩

/-- They are reached from the start. -/
theorem exists_reachable {c : σ} {is : List ι} (h : (runAll E prog is c).isSome = true) :
    ∃ sys, Reachable E L prog c sys ∧ sys.history.map Prod.fst = is := by
  obtain ⟨⟨later, c'⟩, hrun⟩ := Option.isSome_iff_exists.mp h
  have hstart : Reachable E L prog c ⟨c, fun _ => none, []⟩ := Relation.ReflTransGen.refl
  obtain ⟨hreached, hfst⟩ := hstart.runAll hrun
  exact ⟨_, hreached, hfst⟩

end Machine

end Transactions
