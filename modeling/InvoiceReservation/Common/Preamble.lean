import InvoiceReservation.Common.Serializable
/-!
# Transactions that ask before they begin

A caller may read without a lock, decide, and only then begin its
transaction. Such a caller is a tree of its own, the `outer` one, and the
transaction it leads to is the `inner` one. Until the inner transaction
has taken its first lock, the outer has done nothing: so an interleaving
of callers is simulated by one of their transactions, which begin when
they first lock. A caller that never gets there is not seen at all.
-/

namespace Transactions

variable {Stmt : Type → Type} {σ W ε ρ ρ' ι K : Type}
variable {E : Engine Stmt σ W ε} {L : Locks Stmt W K} {f : ρ' → ρ}
variable {inner : ι → Tx Stmt ε ρ'} {outer : ι → Tx Stmt ε ρ} {c : σ}

/-- A tree that leads to `u`: its statements write and lock nothing until
one is the first of `u`, and from there it is `u`, with its answer mapped. -/
def Leads (E : Engine Stmt σ W ε) (L : Locks Stmt W K) (f : ρ' → ρ) (u : Tx Stmt ε ρ') :
    Tx Stmt ε ρ → Prop
  | .pure _ => True
  | .throw _ => True
  | .exec s k => ∀ c b ws, E.exec s c = .ok (b, ws) →
      (ws = [] ∧ L.taken s b ws = []) ∧ Leads E L f u (k b) ∨
        ∃ k', u = .exec s k' ∧ k b = (k' b).map f

/-- A tree whose statements write and lock nothing. -/
def Unlocked (E : Engine Stmt σ W ε) (L : Locks Stmt W K) : Tx Stmt ε ρ → Prop
  | .pure _ => True
  | .throw _ => True
  | .exec s k => (∀ c b ws, E.exec s c = .ok (b, ws) → ws = [] ∧ L.taken s b ws = []) ∧
      ∀ b, Unlocked E L (k b)

/-- What follows a tree without locks leads where it leads. -/
theorem Unlocked.leads {α : Type} {u : Tx Stmt ε ρ'} {t : Tx Stmt ε α} {k : α → Tx Stmt ε ρ}
    (h : Unlocked E L t) (hk : ∀ a, Leads E L f u (k a)) : Leads E L f u (t >>= k) := by
  induction t with
  | pure a => exact hk a
  | throw e => trivial
  | exec s k' ih => exact fun c b ws hx => Or.inl ⟨h.1 c b ws hx, ih b (h.2 b)⟩

/-- A transaction leads to itself. -/
theorem leads_map {α : Type} (t : Tx Stmt ε α) (g : α → ρ') :
    Leads E L f (t.map g) (t.map fun a => f (g a)) := by
  cases t with
  | pure a => trivial
  | throw e => trivial
  | exec s k => exact fun c b ws _ => Or.inr ⟨fun b => (k b).map g, rfl, (Tx.map_map _ _ _).symm⟩

/-- Where a caller is, and where its transaction is. -/
inductive Mirrors (E : Engine Stmt σ W ε) (L : Locks Stmt W K) (f : ρ' → ρ)
    (inner : ι → Tx Stmt ε ρ') :
    Option (Active Stmt W ε ρ ι K) → Option (Active Stmt W ε ρ' ι K) → Prop
  /-- There is none. -/
  | none : Mirrors E L f inner none none
  /-- The caller has yet to begin its transaction, or never will. -/
  | before (i : ι) (rest : Tx Stmt ε ρ) : Leads E L f (inner i) rest →
      Mirrors E L f inner (some ⟨i, rest, [], []⟩) none
  /-- The transaction is under way. -/
  | inside (i : ι) (rest : Tx Stmt ε ρ') (writes : List W) (held : List K) :
      Mirrors E L f inner (some ⟨i, rest.map f, writes, held⟩) (some ⟨i, rest, writes, held⟩)

/-- The simulation: the same committed state and locks, and every commit of
a transaction is a commit of its caller. -/
structure Simulates (E : Engine Stmt σ W ε) (L : Locks Stmt W K) (f : ρ' → ρ)
    (inner : ι → Tx Stmt ε ρ') (sys : Sys Stmt σ W ε ρ ι K) (core : Sys Stmt σ W ε ρ' ι K) :
    Prop where
  committed : core.committed = sys.committed
  active : ∀ t, Mirrors E L f inner (sys.active t) (core.active t)
  history : (core.history.map fun entry => (entry.1, f entry.2)).Sublist sys.history

variable {sys sys' : Sys Stmt σ W ε ρ ι K} {core : Sys Stmt σ W ε ρ' ι K}

/-- The simulation, after one caller and its transaction have moved. -/
theorem Simulates.update {t : ℕ} {a : Option (Active Stmt W ε ρ ι K)}
    {a' : Option (Active Stmt W ε ρ' ι K)} (h : Simulates E L f inner sys core)
    (hm : Mirrors E L f inner a a') :
    Simulates E L f inner { sys with active := Function.update sys.active t a }
      { core with active := Function.update core.active t a' } where
  committed := h.committed
  active u := by
    by_cases hu : u = t
    · subst hu; simpa using hm
    · simpa [hu] using h.active u
  history := h.history

/-- A table of transactions that is set to what it is. -/
theorem update_self {t : ℕ} {a : Option (Active Stmt W ε ρ ι K)} (h : sys.active t = a) :
    { sys with active := Function.update sys.active t a } = sys := by
  subst h
  simp

/-- Locks that no other caller holds, no other transaction holds. -/
theorem Simulates.free {t : ℕ} {keys : List K} (h : Simulates E L f inner sys core)
    (hfree : ∀ t' a', t' ≠ t → sys.active t' = some a' → ∀ x ∈ keys, x ∉ a'.held) :
    ∀ t' a', t' ≠ t → core.active t' = some a' → ∀ x ∈ keys, x ∉ a'.held := by
  intro t' a' hne ha' x hx
  have hm := h.active t'
  rw [ha'] at hm
  cases hs : sys.active t' with
  | none => rw [hs] at hm; cases hm
  | some a =>
    have hheld := hfree t' a hne hs x hx
    rw [hs] at hm
    cases hm with
    | inside i rest writes held => exact hheld

/-- **One step of the callers is one step of their transactions, or two, or
none.** -/
theorem Simulates.step (hlead : ∀ i, Leads E L f (inner i) (outer i))
    (h : Simulates E L f inner sys core) (hs : Step E L outer sys sys') :
    ∃ core', Steps E L inner core core' ∧ Simulates E L f inner sys' core' := by
  cases hs with
  | begin t i hnone =>
    have hm := h.active t
    rw [hnone] at hm
    cases hcore : core.active t with
    | some a => rw [hcore] at hm; cases hm
    | none =>
      refine ⟨core, .refl, ?_⟩
      rw [← update_self hcore]
      exact h.update (.before i (outer i) (hlead i))
  | exec t a s k b ws ha hrest hx hfree =>
    have hm := h.active t
    rw [ha] at hm
    cases hcore : core.active t with
    | none =>
      rw [hcore] at hm
      cases hm with
      | before i rest hl =>
        obtain rfl : rest = .exec s k := hrest
        -- either the preamble goes on, or this statement is the first of the rest
        rcases hl _ b ws hx with ⟨⟨rfl, htaken⟩, hk⟩ | ⟨k', hu, hk⟩
        · refine ⟨core, .refl, ?_⟩
          rw [← update_self hcore, htaken]
          exact h.update (.before i (k b) hk)
        · -- the transaction begins, and runs its first statement
          have hview : Sys.view E core ⟨i, inner i, [], []⟩ =
              Sys.view E sys ⟨i, .exec s k, [], []⟩ := h.committed
          refine ⟨_, Relation.ReflTransGen.tail (Relation.ReflTransGen.single
            (Step.begin t i hcore)) (Step.exec t ⟨i, inner i, [], []⟩ s k' b ws (by simp) hu
              (hview ▸ hx) ?_), ?_⟩
          · intro t' a' hne ha'
            rcases update_active ha' with ⟨rfl, -⟩ | ⟨-, ha'⟩
            · exact absurd rfl hne
            · exact h.free hfree t' a' hne ha'
          · rw [hk]
            simp only [Function.update_idem]
            exact h.update (.inside i (k' b) ([] ++ ws) ([] ++ L.taken s b ws))
    | some a' =>
      rw [hcore] at hm
      cases hm with
      | inside i rest writes held =>
        cases rest with
        | pure r => cases hrest
        | throw e => cases hrest
        | exec s' k' =>
          cases hrest
          have hview : Sys.view E core ⟨i, .exec s k', writes, held⟩ =
              Sys.view E sys ⟨i, (Tx.exec s k').map f, writes, held⟩ :=
            congrArg (E.applyAll writes) h.committed
          exact ⟨_, Relation.ReflTransGen.single (Step.exec t _ s k' b ws hcore rfl (hview ▸ hx)
            (h.free hfree)), h.update (.inside i (k' b) _ _)⟩
  | abort t a ha =>
    -- a caller that has not begun its transaction has nothing to abort there
    have hm := h.active t
    cases hcore : core.active t with
    | none =>
      refine ⟨core, .refl, ?_⟩
      rw [← update_self hcore]
      exact h.update .none
    | some a' => exact ⟨_, Relation.ReflTransGen.single (Step.abort t a' hcore), h.update .none⟩
  | commit t a r ha hrest =>
    have hm := h.active t
    rw [ha] at hm
    cases hcore : core.active t with
    | none =>
      rw [hcore] at hm
      cases hm with
      | before i rest hl =>
        refine ⟨core, .refl, h.committed, fun u => ?_, ?_⟩
        · exact update_self hcore ▸ (h.update .none).active u
        · exact h.history.trans (List.sublist_append_left _ _)
    | some a' =>
      rw [hcore] at hm
      cases hm with
      | inside i rest writes held =>
        cases rest with
        | throw e => cases hrest
        | exec s k => cases hrest
        | pure r' =>
          cases hrest
          refine ⟨_, Relation.ReflTransGen.single (Step.commit t _ r' hcore rfl), ?_,
            fun u => ?_, ?_⟩
          · exact congrArg (E.applyAll writes) h.committed
          · exact (h.update .none).active u
          · rw [List.map_append]
            exact h.history.append (List.Sublist.refl _)

/-- **An interleaving of callers is simulated by one of their transactions.** -/
theorem Reachable.simulated (hlead : ∀ i, Leads E L f (inner i) (outer i))
    (h : Reachable E L outer c sys) :
    ∃ core, Reachable E L inner c core ∧ Simulates E L f inner sys core := by
  refine h.induct (P := fun sys => ∃ core, Reachable E L inner c core ∧
    Simulates E L f inner sys core) ⟨Sys.start c, .refl, rfl, fun _ => .none, .refl _⟩ ?_
  rintro sys sys' - ⟨core, hcore, hsim⟩ hs
  obtain ⟨core', hsteps, hsim'⟩ := hsim.step hlead hs
  exact ⟨core', hcore.trans hsteps, hsim'⟩

end Transactions
