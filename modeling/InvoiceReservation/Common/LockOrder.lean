import InvoiceReservation.Common.Interleaving
import Mathlib.Data.DFinsupp.WellFounded
import Mathlib.Data.Fintype.Card
/-!
# Locks in order

Transactions that take their locks in the order of a rank never wait for
each other in a circle: whoever waits holds only locks that rank below the
one it waits for, so from a transaction to the one it waits for the ranks
rise. Then something under way can always go on, and however it goes on
everything ends, with nothing rolled back to free its locks.

`Climbs` is the order, read off a transaction's tree. Some statements are
let off: a statement's `shelter` is a key such that nobody without it holds
what the statement takes.
-/

namespace Transactions

variable {Stmt : Type → Type} {σ W ε ρ ι K : Type}

section Machine

variable (E : Engine Stmt σ W ε) (L : Locks Stmt W K)

/-! ## Waiting and going on -/

/-- The next statement of `t` takes a lock `x` that `u` holds. -/
inductive WaitsFor (sys : Sys Stmt σ W ε ρ ι K) (x : K) (t u : ℕ) : Prop
  | intro (a a' : Active Stmt W ε ρ ι K) {β : Type} (s : Stmt β) (k : β → Tx Stmt ε ρ) (b : β)
      (ws : List W) :
      t ≠ u → sys.active t = some a → sys.active u = some a' → a.rest = .exec s k →
      E.exec s (sys.view E a) = .ok (b, ws) → x ∈ L.taken s b ws → x ∈ a'.held →
      WaitsFor sys x t u

/-- `t` waits for `u`. -/
def Waits (sys : Sys Stmt σ W ε ρ ι K) (t u : ℕ) : Prop := ∃ x, WaitsFor E L sys x t u

/-- **A transaction goes on by itself**: its next statement runs, its locks
being free; it commits; or it rolls back for an error, its own or the
database's. -/
inductive Advance (sys : Sys Stmt σ W ε ρ ι K) : Sys Stmt σ W ε ρ ι K → Prop
  | exec (t : ℕ) (a : Active Stmt W ε ρ ι K) {β : Type} (s : Stmt β) (k : β → Tx Stmt ε ρ)
      (b : β) (ws : List W) :
      sys.active t = some a → a.rest = .exec s k → E.exec s (sys.view E a) = .ok (b, ws) →
      (∀ t' a', t' ≠ t → sys.active t' = some a' → ∀ x ∈ L.taken s b ws, x ∉ a'.held) →
      Advance sys { sys with
        active := Function.update sys.active t
          (some ⟨a.label, k b, a.writes ++ ws, a.held ++ L.taken s b ws⟩) }
  | commit (t : ℕ) (a : Active Stmt W ε ρ ι K) (r : ρ) :
      sys.active t = some a → a.rest = .pure r →
      Advance sys ⟨sys.view E a, Function.update sys.active t none, sys.history ++ [(a.label, r)]⟩
  | throw (t : ℕ) (a : Active Stmt W ε ρ ι K) (e : ε) :
      sys.active t = some a → a.rest = .throw e →
      Advance sys { sys with active := Function.update sys.active t none }
  | fail (t : ℕ) (a : Active Stmt W ε ρ ι K) {β : Type} (s : Stmt β) (k : β → Tx Stmt ε ρ)
      (e : ε) :
      sys.active t = some a → a.rest = .exec s k → E.exec s (sys.view E a) = .error e →
      Advance sys { sys with active := Function.update sys.active t none }

/-- **However what is under way goes on, all of it ends**: something can go
on while anything is under way, and nothing goes on for ever. -/
inductive Drains : Sys Stmt σ W ε ρ ι K → Prop
  | intro (sys : Sys Stmt σ W ε ρ ι K) :
      (∀ t a, sys.active t = some a → ∃ sys', Advance E L sys sys') →
      (∀ sys', Advance E L sys sys' → Drains sys') → Drains sys

variable {E L} {prog : ι → Tx Stmt ε ρ} {sys sys' : Sys Stmt σ W ε ρ ι K} {c : σ}

/-- Going on is a step of the interleaving. -/
theorem Advance.step (h : Advance E L sys sys') : Step E L prog sys sys' := by
  cases h with
  | exec t a s k b ws ha hrest hx hfree => exact .exec t a s k b ws ha hrest hx hfree
  | commit t a r ha hrest => exact .commit t a r ha hrest
  | throw t a e ha => exact .abort t a ha
  | fail t a s k e ha => exact .abort t a ha

/-- What drains can end. -/
theorem Drains.ends (h : Drains E L sys) :
    ∃ sys', Relation.ReflTransGen (Advance E L) sys sys' ∧ ∀ t, sys'.active t = none := by
  induction h with
  | intro sys hsome _ ih =>
    by_cases hany : ∃ t a, sys.active t = some a
    · obtain ⟨t, a, ha⟩ := hany
      obtain ⟨sys₁, h₁⟩ := hsome t a ha
      obtain ⟨sys', hrun, hnone⟩ := ih sys₁ h₁
      exact ⟨sys', .head h₁ hrun, hnone⟩
    · refine ⟨sys, .refl, fun t => ?_⟩
      cases ha : sys.active t with
      | none => rfl
      | some a => exact absurd ⟨t, a, ha⟩ hany

/-! ## The order of the locks -/

/-- Whoever waits for a lock holds only locks that rank below it. -/
def LockOrder (E : Engine Stmt σ W ε) (L : Locks Stmt W K) (rank : K → ℕ)
    (sys : Sys Stmt σ W ε ρ ι K) : Prop :=
  ∀ x t u a, WaitsFor E L sys x t u → sys.active t = some a → ∀ y ∈ a.held, rank y < rank x

variable {rank : K → ℕ} {t u : ℕ} {a : Active Stmt W ε ρ ι K}

/-- From whom one waits, over any number of transactions, the last holds a
lock that ranks above all the first holds. -/
theorem LockOrder.rises (h : LockOrder E L rank sys) (hw : Relation.TransGen (Waits E L sys) t u)
    (ha : sys.active t = some a) :
    ∃ x a', sys.active u = some a' ∧ x ∈ a'.held ∧ ∀ y ∈ a.held, rank y < rank x := by
  induction hw with
  | single hw =>
    obtain ⟨x, hx⟩ := hw
    have hbelow := h x _ _ a hx ha
    cases hx with
    | intro _ a' _ _ _ _ _ _ ha' _ _ _ hheld => exact ⟨x, a', ha', hheld, hbelow⟩
  | tail _ hw ih =>
    obtain ⟨x, a₁, ha₁, hx, hbelow⟩ := ih
    obtain ⟨x', hx'⟩ := hw
    have habove := h x' _ _ a₁ hx' ha₁ x hx
    cases hx' with
    | intro _ a' _ _ _ _ _ _ ha' _ _ _ hheld =>
      exact ⟨x', a', ha', hheld, fun y hy => (hbelow y hy).trans habove⟩

/-- **No circle of transactions that wait for each other.** -/
theorem LockOrder.acyclic (h : LockOrder E L rank sys) :
    ¬ Relation.TransGen (Waits E L sys) t t := by
  intro hw
  have hactive : ∃ a, sys.active t = some a := by
    obtain ⟨u, ⟨x, hx⟩, -⟩ := Relation.TransGen.head'_iff.mp hw
    cases hx with
    | intro a _ _ _ _ _ _ ha _ _ _ _ _ => exact ⟨a, ha⟩
  obtain ⟨a, ha⟩ := hactive
  obtain ⟨x, a', ha', hx, hbelow⟩ := h.rises hw ha
  rw [ha] at ha'
  cases ha'
  exact absurd (hbelow x hx) (lt_irrefl _)

/-- The transactions under way have numbers below `n`. -/
def Sys.Below (n : ℕ) (sys : Sys Stmt σ W ε ρ ι K) : Prop := ∀ t, n ≤ t → sys.active t = none

theorem Sys.Below.lt {n : ℕ} (h : sys.Below n) (ha : sys.active t = some a) : t < n := by
  by_contra hle
  rw [h t (not_lt.mp hle)] at ha
  cases ha

/-- Finitely many are ever under way. -/
theorem Reachable.below (h : Reachable E L prog c sys) : ∃ n, sys.Below n := by
  refine h.induct (P := fun sys => ∃ n, sys.Below n) ⟨0, fun _ _ => rfl⟩ fun sys sys' _ ih hs => ?_
  obtain ⟨n, hn⟩ := ih
  have hmove : ∀ t o, (Sys.Below (max n (t + 1))
      { sys with active := Function.update sys.active t o }) := by
    intro t o u hu
    have hne : u ≠ t := by omega
    simp only [Function.update_of_ne hne]
    exact hn u (by omega)
  cases hs with
  | begin t _ | exec t _ _ _ _ _ _ _ _ _ | abort t _ _ | commit t _ _ _ _ =>
    exact ⟨_, hmove t _⟩

/-- **Something can always go on.** Of those under way, one waits for
nobody. -/
theorem LockOrder.advance (h : LockOrder E L rank sys) {n : ℕ} (hn : sys.Below n)
    (ha : sys.active t = some a) : ∃ sys', Advance E L sys sys' := by
  -- nobody waits for itself, and there are finitely many: a last one waits for nobody
  let later (i j : Fin n) : Prop := Relation.TransGen (Waits E L sys) j i
  have htrans : IsTrans (Fin n) later := ⟨fun _ _ _ hij hjk => hjk.trans hij⟩
  have hirrefl : Std.Irrefl later := ⟨fun _ => h.acyclic⟩
  obtain ⟨i, hi, hlast⟩ := (Finite.wellFounded_of_trans_of_irrefl later).has_min
    {i | ∃ a, sys.active i = some a} ⟨⟨t, hn.lt ha⟩, a, ha⟩
  obtain ⟨a, ha⟩ := hi
  cases hrest : a.rest with
  | pure r => exact ⟨_, .commit i a r ha hrest⟩
  | throw e => exact ⟨_, .throw i a e ha hrest⟩
  | exec s k =>
    cases hx : E.exec s (sys.view E a) with
    | error e => exact ⟨_, .fail i a s k e ha hrest hx⟩
    | ok r =>
      refine ⟨_, .exec i a s k r.1 r.2 ha hrest hx fun u a' hu ha' x hxt hheld => ?_⟩
      exact hlast ⟨u, hn.lt ha'⟩ ⟨a', ha'⟩
        (.single ⟨x, .intro a a' s k r.1 r.2 hu.symm ha ha' hrest hx hxt hheld⟩)

/-! ## Everything ends -/

/-- What is left of a transaction after it has gone on. -/
inductive Shrinks : Option (Tx Stmt ε ρ) → Option (Tx Stmt ε ρ) → Prop
  | exec {β : Type} (s : Stmt β) (k : β → Tx Stmt ε ρ) (b : β) :
      Shrinks (some (k b)) (some (.exec s k))
  | finish (t : Tx Stmt ε ρ) : Shrinks none (some t)

/-- A transaction does not go on for ever. -/
theorem shrinks_wellFounded :
    WellFounded (Shrinks : Option (Tx Stmt ε ρ) → Option (Tx Stmt ε ρ) → Prop) := by
  have hnone : Acc Shrinks (none : Option (Tx Stmt ε ρ)) := ⟨_, fun _ h => nomatch h⟩
  refine ⟨fun o => ?_⟩
  cases o with
  | none => exact hnone
  | some t =>
    induction t with
    | pure | throw =>
      refine ⟨_, fun _ h => ?_⟩
      cases h
      exact hnone
    | exec s k ih =>
      refine ⟨_, fun _ h => ?_⟩
      cases h with
      | exec _ _ b => exact ih b
      | finish => exact hnone

/-- What a number has still to do. -/
def Sys.left (sys : Sys Stmt σ W ε ρ ι K) (t : ℕ) : Option (Tx Stmt ε ρ) :=
  (sys.active t).map (·.rest)

/-- Who goes on has less to do, and nobody else has other than before. -/
theorem Advance.shrinks (h : Advance E L sys sys') :
    ∃ t a, sys.active t = some a ∧ Shrinks (sys'.left t) (sys.left t) ∧
      ∀ u, u ≠ t → sys'.active u = sys.active u := by
  cases h with
  | exec t a s k b ws ha hrest =>
    refine ⟨t, a, ha, ?_, fun u hu => Function.update_of_ne hu _ _⟩
    simpa [Sys.left, ha, hrest] using Shrinks.exec s k b
  | commit t a r ha | throw t a e ha | fail t a s k e ha =>
    refine ⟨t, a, ha, ?_, fun u hu => Function.update_of_ne hu _ _⟩
    simpa [Sys.left, ha] using Shrinks.finish a.rest

theorem Advance.below {n : ℕ} (h : Advance E L sys sys') (hn : sys.Below n) : sys'.Below n := by
  obtain ⟨t, a, ha, -, hothers⟩ := h.shrinks
  intro u hu
  rw [hothers u (by have := hn.lt ha; omega)]
  exact hn u hu

/-- **What is in lock order drains.** -/
theorem Reachable.drains (horder : ∀ sys, Reachable E L prog c sys → LockOrder E L rank sys)
    (h : Reachable E L prog c sys) : Drains E L sys := by
  obtain ⟨n, hn⟩ := h.below
  -- one of finitely many transactions has less to do, and the others have what they had
  have hwf := InvImage.wf (fun sys : Sys Stmt σ W ε ρ ι K => fun i : Fin n => sys.left i)
    (Pi.Lex.wellFounded (· < ·) fun _ => shrinks_wellFounded)
  induction sys using hwf.induction with
  | _ sys ih =>
    refine .intro sys (fun t a ha => (horder sys h).advance hn ha) fun sys' hadv => ?_
    refine ih sys' ?_ (h.trans (.single hadv.step)) (hadv.below hn)
    obtain ⟨t, a, ha, hless, hothers⟩ := hadv.shrinks
    refine ⟨⟨t, hn.lt ha⟩, fun j hj => ?_, hless⟩
    have hne : (j : ℕ) ≠ t := fun he => absurd hj (by simp [Fin.lt_def, he])
    simp only [Sys.left, hothers j hne]

end Machine

/-! ## Transactions that climb -/

section Climbs

variable (E : Engine Stmt σ W ε) (L : Locks Stmt W K) (rank : K → ℕ)
variable (shelter : {β : Type} → Stmt β → Option K)

/-- With locks `held` that rank below `r`, every statement is sheltered by a
lock that is held, or it takes what is held and what ranks at `r` or above. -/
def Climbs : List K → ℕ → Tx Stmt ε ρ → Prop
  | _, _, .pure _ => True
  | _, _, .throw _ => True
  | held, r, .exec s k => ∀ c b ws, E.exec s c = .ok (b, ws) →
      ((∃ g, shelter s = some g ∧ g ∈ held) ∨
        shelter s = none ∧ ∀ x ∈ L.taken s b ws, x ∈ held ∨ r ≤ rank x) ∧
      ∃ r', (∀ x ∈ L.taken s b ws, x ∈ held ∨ rank x < r') ∧ r ≤ r' ∧
        Climbs (held ++ L.taken s b ws) r' (k b)

variable {E L rank shelter} {held : List K} {r : ℕ} {β α : Type} {s : Stmt β}
variable {k : β → Tx Stmt ε ρ}

/-- A statement that takes only what is held. -/
theorem Climbs.again (hs : shelter s = none)
    (ht : ∀ c b ws, E.exec s c = .ok (b, ws) → ∀ x ∈ L.taken s b ws, x ∈ held)
    (hk : ∀ b held', held ⊆ held' → Climbs E L rank shelter held' r (k b)) :
    Climbs E L rank shelter held r (.exec s k) := fun c b ws hx =>
  ⟨Or.inr ⟨hs, fun x hx' => Or.inl (ht c b ws hx x hx')⟩, r,
    fun x hx' => Or.inl (ht c b ws hx x hx'), le_rfl, hk b _ (List.subset_append_left _ _)⟩

/-- A statement that may take what ranks from `r` to below `r'`. -/
theorem Climbs.next (r' : ℕ) (hs : shelter s = none) (hr : r ≤ r')
    (ht : ∀ c b ws, E.exec s c = .ok (b, ws) →
      ∀ x ∈ L.taken s b ws, x ∈ held ∨ r ≤ rank x ∧ rank x < r')
    (hk : ∀ c b ws, E.exec s c = .ok (b, ws) →
      Climbs E L rank shelter (held ++ L.taken s b ws) r' (k b)) :
    Climbs E L rank shelter held r (.exec s k) := fun c b ws hx =>
  ⟨Or.inr ⟨hs, fun x hx' => (ht c b ws hx x hx').imp_right And.left⟩, r',
    fun x hx' => (ht c b ws hx x hx').imp_right And.right, hr, hk c b ws hx⟩

/-- A sheltered statement, after which only what is held is taken. -/
theorem Climbs.sheltered {g : K} (hs : shelter s = some g) (hg : g ∈ held)
    (hk : ∀ b held' r', held ⊆ held' → Climbs E L rank shelter held' r' (k b)) :
    Climbs E L rank shelter held r (.exec s k) := by
  intro c b ws hx
  obtain ⟨r', hr', hle⟩ : ∃ r', (∀ x ∈ L.taken s b ws, rank x < r') ∧ r ≤ r' := by
    generalize L.taken s b ws = taken
    induction taken with
    | nil => exact ⟨r, by simp, le_rfl⟩
    | cons x taken ih =>
      obtain ⟨r', hr', hle⟩ := ih
      refine ⟨max r' (rank x + 1), fun y hy => ?_, by omega⟩
      rcases List.mem_cons.mp hy with rfl | hy
      · omega
      · have := hr' y hy; omega
  exact ⟨Or.inl ⟨g, hs, hg⟩, r', fun x hx' => Or.inr (hr' x hx'), hle,
    hk b _ r' (List.subset_append_left _ _)⟩

/-- Mapping the answers changes no statement. -/
theorem Climbs.map {g : ρ → α} {t : Tx Stmt ε ρ} (h : Climbs E L rank shelter held r t) :
    Climbs E L rank shelter held r (t.map g) := by
  induction t generalizing held r with
  | pure | throw => trivial
  | exec s k ih =>
    intro c b ws hx
    obtain ⟨htaken, r', hr', hle, hk⟩ := h c b ws hx
    exact ⟨htaken, r', hr', hle, ih b hk⟩

variable {prog : ι → Tx Stmt ε ρ} {sys : Sys Stmt σ W ε ρ ι K} {c : σ}

/-- What is under way climbs on. -/
theorem Reachable.climbs (hprog : ∀ i, Climbs E L rank shelter [] 0 (prog i))
    (h : Reachable E L prog c sys) : ∀ t a, sys.active t = some a →
      ∃ r, (∀ x ∈ a.held, rank x < r) ∧ Climbs E L rank shelter a.held r a.rest := by
  refine h.each (P := fun _ a => ∃ r, (∀ x ∈ a.held, rank x < r) ∧
    Climbs E L rank shelter a.held r a.rest) (fun _ i => ⟨0, by simp, hprog i⟩) ?_
    fun _ _ _ ha _ => ha
  intro sys a β s k b ws _ ⟨r, hbelow, hclimbs⟩ hrest hx
  rw [hrest] at hclimbs
  obtain ⟨-, r', hr', hle, hk⟩ := hclimbs _ b ws hx
  refine ⟨r', fun x hx' => ?_, hk⟩
  rcases List.mem_append.mp hx' with hx' | hx'
  · exact (hbelow x hx').trans_le hle
  · exact (hr' x hx').elim (fun h => (hbelow x h).trans_le hle) id

/-- **Transactions that climb are in lock order**, where no sheltered
statement waits. -/
theorem Reachable.lockOrder (hprog : ∀ i, Climbs E L rank shelter [] 0 (prog i))
    (hexclusive : ∀ t t' a a', t ≠ t' → sys.active t = some a → sys.active t' = some a' →
      ∀ x ∈ a.held, x ∉ a'.held)
    (hshelter : ∀ t t' a a' {β : Type} (s : Stmt β) b ws g, t ≠ t' → sys.active t = some a →
      sys.active t' = some a' → E.exec s (sys.view E a) = .ok (b, ws) → shelter s = some g →
      g ∈ a.held → ∀ x ∈ L.taken s b ws, x ∉ a'.held)
    (h : Reachable E L prog c sys) : LockOrder E L rank sys := by
  intro x t u a hw ha y hy
  obtain ⟨r, hbelow, hclimbs⟩ := h.climbs hprog t a ha
  cases hw with
  | intro a₁ a' s k b ws hne ha₁ ha' hrest hx hxt hheld =>
    rw [ha] at ha₁
    cases ha₁
    rw [hrest] at hclimbs
    obtain ⟨⟨g, hs, hg⟩ | ⟨-, htaken⟩, -⟩ := hclimbs _ b ws hx
    · exact absurd hheld (hshelter t u a a' s b ws g hne ha ha' hx hs hg x hxt)
    · rcases htaken x hxt with hxa | hle
      · exact absurd hheld (hexclusive t u a a' hne ha ha' x hxa)
      · exact (hbelow y hy).trans_le hle

end Climbs

end Transactions
