import InvoiceReservation.Common.Interleaving
/-!
# Serializability

An interleaving of transactions that lock what they read equals a serial
run in commit order. Two disciplines are asked of a transaction, both
readable off its tree.

`Scoped`: whatever a statement's answer depends on is locked by the time
the statement has run, with one exception, the *guard*. `Guarded`: the
guard is a key that is inserted once and never removed, such as a message
or request identity. A transaction may look at it unlocked, but it writes
nothing before it has inserted it itself.

So at every point a transaction's statements so far would give the same
answers on the latest committed state (`Prefix`), or its guard has been
inserted by another, and then it has written nothing and never will.
-/

namespace Transactions

variable {Stmt : Type → Type} {σ W ε ρ ι K : Type}

/-- How the keys of a database relate to its states: two states `agree`
at a key when no statement reading only that key tells them apart, and a
key is `present` when it has been inserted. -/
structure Keyed (E : Engine Stmt σ W ε) (L : Locks Stmt W K) where
  agree : K → σ → σ → Prop
  agree_refl : ∀ k c, agree k c c
  agree_trans : ∀ {k c c' c''}, agree k c c' → agree k c' c'' → agree k c c''
  exec_congr : ∀ {β : Type} {s : Stmt β} {ks c c'}, L.reads s = some ks →
    (∀ k ∈ ks, agree k c c') → E.exec s c = E.exec s c'
  apply_congr : ∀ {k c c'} (w : W), agree k c c' → agree k (E.apply w c) (E.apply w c')
  apply_frame : ∀ {k w} (c), k ∉ L.keys w → agree k c (E.apply w c)
  present : K → σ → Prop
  present_mono : ∀ {k c} (w : W), present k c → present k (E.apply w c)
  present_key : ∀ {k w} (c), k ∈ L.keys w → present k (E.apply w c)

namespace Keyed

variable {E : Engine Stmt σ W ε} {L : Locks Stmt W K} (D : Keyed E L)
variable {k g : K} {c c' : σ} {ws : List W} {Q : ρ → Prop}

theorem applyAll_congr (h : D.agree k c c') :
    D.agree k (E.applyAll ws c) (E.applyAll ws c') := by
  induction ws generalizing c c' with
  | nil => exact h
  | cons w ws ih => exact ih (D.apply_congr w h)

theorem applyAll_frame (h : ∀ w ∈ ws, k ∉ L.keys w) : D.agree k c (E.applyAll ws c) := by
  induction ws generalizing c with
  | nil => exact D.agree_refl k c
  | cons w ws ih =>
    exact D.agree_trans (D.apply_frame c (h w List.mem_cons_self))
      (ih fun w' hw' => h w' (List.mem_cons_of_mem _ hw'))

theorem present_applyAll (h : D.present k c) : D.present k (E.applyAll ws c) := by
  induction ws generalizing c with
  | nil => exact h
  | cons w ws ih => exact ih (D.present_mono w h)

theorem present_applyAll_key {w : W} (hw : w ∈ ws) (hk : k ∈ L.keys w) :
    D.present k (E.applyAll ws c) := by
  induction ws generalizing c with
  | nil => simp at hw
  | cons w' ws ih =>
    rcases List.mem_cons.mp hw with rfl | hw
    · rw [E.applyAll_cons]; exact D.present_applyAll (D.present_key c hk)
    · rw [E.applyAll_cons]; exact ih hw

/-! ## The two disciplines -/

/-- Every statement's reads are the guard's, or locked once it has run. A
transaction about to roll back owes nothing. -/
def Scoped (E : Engine Stmt σ W ε) (L : Locks Stmt W K) (g : K) :
    List K → Tx Stmt ε ρ → Prop
  | _, .pure _ => True
  | _, .throw _ => True
  | held, .exec s k => ∀ c b ws, E.exec s c = .ok (b, ws) →
      (∃ e, k b = .throw e) ∨
        (∃ ks, L.reads s = some ks ∧ ∀ x ∈ ks, x = g ∨ x ∈ held ∨ x ∈ L.taken s b ws) ∧
          Scoped E L g (held ++ L.taken s b ws) (k b)

/-- Nothing is written before the guard is inserted, which succeeds only
where it is not present. A transaction that ends without having inserted
it answers as `Q` says. -/
def Guarded (Q : ρ → Prop) (g : K) : Tx Stmt ε ρ → Prop
  | .pure r => Q r
  | .throw _ => True
  | .exec s k => ∀ c b ws, E.exec s c = .ok (b, ws) →
      (ws = [] ∧ g ∉ L.takes s b) ∧ Guarded Q g (k b) ∨ g ∈ L.taken s b ws ∧ ¬ D.present g c

/-- The form `Scoped` is usually met in: every statement reads keys of one
list, or keys it always locks. -/
def Within (E : Engine Stmt σ W ε) (L : Locks Stmt W K) (ks : List K) : Tx Stmt ε ρ → Prop
  | .pure _ => True
  | .throw _ => True
  | .exec s k => (∃ rs, L.reads s = some rs ∧ ∀ x ∈ rs, x ∈ ks ∨
      ∀ c b ws, E.exec s c = .ok (b, ws) → x ∈ L.taken s b ws) ∧ ∀ b, Within E L ks (k b)

omit D in
theorem Scoped.of_within {held ks : List K} {t : Tx Stmt ε ρ}
    (hks : ∀ x ∈ ks, x = g ∨ x ∈ held) (h : Within E L ks t) : Scoped E L g held t := by
  induction t generalizing held with
  | pure _ => trivial
  | throw _ => trivial
  | exec s k ih =>
    intro c b ws hx
    obtain ⟨rs, hrs, hrk⟩ := h.1
    refine Or.inr ⟨⟨rs, hrs, fun x hxr => ?_⟩, ih b (fun x hx' => ?_) (h.2 b)⟩
    · rcases hrk x hxr with hk | hl
      · rcases hks x hk with hg | hh
        · exact Or.inl hg
        · exact Or.inr (Or.inl hh)
      · exact Or.inr (Or.inr (hl c b ws hx))
    · rcases hks x hx' with hg | hh
      · exact Or.inl hg
      · exact Or.inr (List.mem_append_left _ hh)

omit D in
theorem Within.bind {ks : List K} {α : Type} {t : Tx Stmt ε α} {f : α → Tx Stmt ε ρ}
    (h : Within E L ks t) (hf : ∀ a, Within E L ks (f a)) : Within E L ks (t >>= f) := by
  induction t with
  | pure a => exact hf a
  | throw _ => trivial
  | exec s k ih => exact ⟨h.1, fun b => ih b (h.2 b)⟩

omit D in
theorem Scoped.map {ρ' : Type} {held : List K} {t : Tx Stmt ε ρ} (f : ρ → ρ')
    (h : Scoped E L g held t) : Scoped E L g held (t.map f) := by
  induction t generalizing held with
  | pure _ => trivial
  | throw _ => trivial
  | exec s k ih =>
    intro c b ws hx
    rcases h c b ws hx with ⟨e, he⟩ | ⟨hrs, hk⟩
    · exact Or.inl ⟨e, by change Tx.map f (k b) = _; rw [he]; rfl⟩
    · exact Or.inr ⟨hrs, ih b hk⟩

theorem Guarded.map {ρ' : Type} {Q : ρ' → Prop} {t : Tx Stmt ε ρ} (f : ρ → ρ')
    (h : D.Guarded (fun r => Q (f r)) g t) : D.Guarded Q g (t.map f) := by
  induction t with
  | pure _ => exact h
  | throw _ => trivial
  | exec s k ih =>
    intro c b ws hx
    exact (h c b ws hx).imp_left fun hk => ⟨hk.1, ih b hk.2⟩

/-- A statement that neither writes nor takes the guard. -/
theorem Guarded.read {β : Type} {s : Stmt β} {k : β → Tx Stmt ε ρ}
    (hs : ∀ c b ws, E.exec s c = .ok (b, ws) → ws = [] ∧ g ∉ L.takes s b)
    (hk : ∀ b, D.Guarded Q g (k b)) : D.Guarded Q g (.exec s k) :=
  fun c b ws hx => Or.inl ⟨hs c b ws hx, hk b⟩

/-- **With its guard present, a guarded transaction writes nothing.** -/
theorem Guarded.run_unchanged {t : Tx Stmt ε ρ} (h : D.Guarded Q g t) (hp : D.present g c)
    {r : ρ} (hr : E.run t c = .ok (r, c')) : c' = c := by
  induction t generalizing c with
  | pure a => exact (Engine.run_pure_ok.mp hr).2.symm
  | throw e => exact absurd hr Engine.run_throw_ok
  | exec s k ih =>
    obtain ⟨b, ws, hx, hk⟩ := Engine.run_exec_ok.mp hr
    rcases h c b ws hx with ⟨⟨rfl, -⟩, hg⟩ | ⟨-, hn⟩
    · exact ih b hg hp hk
    · exact absurd hp hn

theorem Guarded.effect_unchanged {t : Tx Stmt ε ρ} (h : D.Guarded Q g t) (hp : D.present g c) :
    E.effect t c = c := by
  cases hr : E.run t c with
  | ok r =>
    obtain ⟨r, c'⟩ := r
    rw [Engine.effect_of_run_ok hr]; exact h.run_unchanged D hp hr
  | error e => exact Engine.effect_of_run_error hr

end Keyed

/-! ## Prefixes of a serial run -/

/-- Running `t` from `c`, the first statements leave `rest` to be done and
`ws` written, and read the keys `fp`. -/
inductive Prefix (E : Engine Stmt σ W ε) (L : Locks Stmt W K) (c : σ) (t : Tx Stmt ε ρ) :
    Tx Stmt ε ρ → List W → List K → Prop
  | refl : Prefix E L c t t [] []
  | exec {β : Type} {s : Stmt β} {k : β → Tx Stmt ε ρ} {ws ws' : List W} {fp rs : List K} {b : β} :
      Prefix E L c t (.exec s k) ws fp → L.reads s = some rs →
      E.exec s (E.applyAll ws c) = .ok (b, ws') → Prefix E L c t (k b) (ws ++ ws') (fp ++ rs)

variable {E : Engine Stmt σ W ε} {L : Locks Stmt W K} {c c' : σ} {t rest : Tx Stmt ε ρ}
variable {ws : List W} {fp : List K}

/-- A run goes on from any of its prefixes. -/
theorem Prefix.run_eq (h : Prefix E L c t rest ws fp) :
    E.run t c = E.run rest (E.applyAll ws c) := by
  induction h with
  | refl => rfl
  | exec _ _ hx ih => rw [ih, Engine.run, hx, E.applyAll_append]

/-- **A prefix is one from every state that agrees where it has read.** -/
theorem Prefix.congr (D : Keyed E L) (h : Prefix E L c t rest ws fp)
    (hfp : ∀ k ∈ fp, D.agree k c c') : Prefix E L c' t rest ws fp := by
  induction h with
  | refl => exact .refl
  | exec _ hrs hx ih =>
    have ih := ih fun k hk => hfp k (List.mem_append_left _ hk)
    refine .exec ih hrs ?_
    rw [← hx]
    exact (D.exec_congr hrs fun k hk =>
      D.applyAll_congr (hfp k (List.mem_append_right _ hk))).symm

/-! ## The machine's invariant -/

section Machine

variable {prog : ι → Tx Stmt ε ρ} (D : Keyed E L) (Q : ρ → Prop)

/-- A transaction that keeps both disciplines, with its guard. -/
structure Disciplined (g : K) (t : Tx Stmt ε ρ) : Prop where
  inScope : Keyed.Scoped E L g [] t
  guarded : D.Guarded Q g t

/-- What holds of a disciplined transaction under way, over the committed
state `c`. -/
structure Valid (prog : ι → Tx Stmt ε ρ) (g : K) (c : σ) (a : Active Stmt W ε ρ ι K) : Prop where
  inScope : Keyed.Scoped E L g a.held a.rest
  claimed : g ∈ a.held ∨ a.writes = [] ∧ D.Guarded Q g a.rest
  exact_or : (∃ e, a.rest = .throw e) ∨
    (∃ fp, Prefix E L c (prog a.label) a.rest a.writes fp ∧ ∀ x ∈ fp, x = g ∨ x ∈ a.held) ∨
    g ∉ a.held ∧ D.present g c

/-- The invariant of the interleaving: locks are exclusive, what is
written is locked, and every disciplined transaction is valid. -/
structure Inv (prog : ι → Tx Stmt ε ρ) (guard : ι → Option K) (sys : Sys Stmt σ W ε ρ ι K) :
    Prop where
  exclusive : ∀ t t' a a', t ≠ t' → sys.active t = some a → sys.active t' = some a' →
    ∀ x ∈ a.held, x ∉ a'.held
  locked : ∀ t a, sys.active t = some a → ∀ w ∈ a.writes, ∀ x ∈ L.keys w, x ∈ a.held
  valid : ∀ t a g, sys.active t = some a → guard a.label = some g →
    Valid D Q prog g sys.committed a

variable {D Q} {guard : ι → Option K} {sys sys' : Sys Stmt σ W ε ρ ι K}

/-- A transaction that has just begun. -/
theorem Valid.begin {i : ι} {g : K} (h : Disciplined D Q g (prog i)) :
    Valid D Q prog g c ⟨i, prog i, [], []⟩ where
  inScope := h.inScope
  claimed := Or.inr ⟨rfl, h.guarded⟩
  exact_or := Or.inr (Or.inl ⟨[], .refl, by simp⟩)

/-- **One statement of a valid transaction.** -/
theorem Valid.exec {g : K} {a : Active Stmt W ε ρ ι K} {β : Type} {s : Stmt β}
    {k : β → Tx Stmt ε ρ} {b : β} (h : Valid D Q prog g c a) (hrest : a.rest = .exec s k)
    (hx : E.exec s (E.applyAll a.writes c) = .ok (b, ws)) :
    Valid D Q prog g c ⟨a.label, k b, a.writes ++ ws, a.held ++ L.taken s b ws⟩ := by
  have hscoped := h.inScope
  rw [hrest] at hscoped
  have hstep := hscoped _ b ws hx
  have hclaimed : g ∈ a.held ++ L.taken s b ws ∨ a.writes ++ ws = [] ∧ D.Guarded Q g (k b) := by
    rcases h.claimed with hg | ⟨hw, hg⟩
    · exact Or.inl (List.mem_append_left _ hg)
    · rw [hrest] at hg
      rcases hg _ b ws hx with ⟨⟨hws, -⟩, hk⟩ | ⟨hl, -⟩
      · exact Or.inr ⟨by simp [hw, hws], hk⟩
      · exact Or.inl (List.mem_append_right _ hl)
  refine ⟨?_, hclaimed, ?_⟩
  · rcases hstep with ⟨e, he⟩ | ⟨-, hk⟩
    · change Keyed.Scoped E L g _ (k b)
      rw [he]; trivial
    · exact hk
  · rcases h.exact_or with ⟨e, he⟩ | ⟨fp, hp, hfp⟩ | ⟨hg, hp⟩
    · rw [hrest] at he; cases he
    · rcases hstep with he | ⟨⟨rs, hrs, hr⟩, -⟩
      · exact Or.inl he
      · rw [hrest] at hp
        refine Or.inr (Or.inl ⟨fp ++ rs, .exec hp hrs hx, fun x hx' => ?_⟩)
        rcases List.mem_append.mp hx' with hx' | hx'
        · exact (hfp x hx').imp_right (List.mem_append_left _)
        · rcases hr x hx' with h1 | h1 | h1
          · exact Or.inl h1
          · exact Or.inr (List.mem_append_left _ h1)
          · exact Or.inr (List.mem_append_right _ h1)
    · -- the guard is present, so this statement cannot have claimed it
      rcases h.claimed with hg' | ⟨hw, hguard⟩
      · exact absurd hg' hg
      · rw [hrest] at hguard
        rcases hguard _ b ws hx with ⟨⟨hws, htakes⟩, -⟩ | ⟨-, hn⟩
        · refine Or.inr (Or.inr ⟨?_, hp⟩)
          subst hws
          simp [Locks.taken, hg, htakes]
        · exact absurd (D.present_applyAll hp) hn

/-- **A commit by another transaction.** Where it inserted the guard, this
transaction had written nothing; where it did not, it touched nothing
this one has read. -/
theorem Valid.commit_other {g : K} {a a' : Active Stmt W ε ρ ι K} (h : Valid D Q prog g c a)
    (hlocked : ∀ w ∈ a'.writes, ∀ x ∈ L.keys w, x ∈ a'.held)
    (hexcl : ∀ x ∈ a'.held, x ∉ a.held) : Valid D Q prog g (E.applyAll a'.writes c) a where
  inScope := h.inScope
  claimed := h.claimed
  exact_or := by
    rcases h.exact_or with he | ⟨fp, hp, hfp⟩ | ⟨hg, hp⟩
    · exact Or.inl he
    · by_cases hw : ∃ w ∈ a'.writes, g ∈ L.keys w
      · obtain ⟨w, hw, hgw⟩ := hw
        exact Or.inr (Or.inr ⟨hexcl g (hlocked w hw g hgw), D.present_applyAll_key hw hgw⟩)
      · refine Or.inr (Or.inl ⟨fp,
          hp.congr D fun x hx => D.applyAll_frame fun w hww hxw => ?_, hfp⟩)
        rcases hfp x hx with rfl | hxa
        · exact hw ⟨w, hww, hxw⟩
        · exact hexcl x (hlocked w hww x hxw) hxa
    · exact Or.inr (Or.inr ⟨hg, D.present_applyAll hp⟩)

/-- **What a commit leaves is what the transaction leaves, run alone.** -/
theorem Valid.effect_eq {g : K} {a : Active Stmt W ε ρ ι K} {r : ρ} (h : Valid D Q prog g c a)
    (hd : Disciplined D Q g (prog a.label)) (hrest : a.rest = .pure r) :
    E.effect (prog a.label) c = E.applyAll a.writes c := by
  rcases h.exact_or with ⟨e, he⟩ | ⟨fp, hp, -⟩ | ⟨hg, hp⟩
  · rw [hrest] at he; cases he
  · rw [hrest] at hp
    exact Engine.effect_of_run_ok (by rw [hp.run_eq]; rfl)
  · rcases h.claimed with hg' | ⟨hw, -⟩
    · exact absurd hg' hg
    · rw [hw, hd.guarded.effect_unchanged D hp]; rfl

/-- **And it answers what it answers run alone**, or it has not inserted
its guard, and has no effect. -/
theorem Valid.run_eq {g : K} {a : Active Stmt W ε ρ ι K} {r : ρ} (h : Valid D Q prog g c a)
    (hrest : a.rest = .pure r) :
    E.run (prog a.label) c = .ok (r, E.applyAll a.writes c) ∨ Q r ∧ a.writes = [] := by
  rcases h.exact_or with ⟨e, he⟩ | ⟨fp, hp, -⟩ | ⟨hg, -⟩
  · rw [hrest] at he; cases he
  · rw [hrest] at hp
    exact Or.inl (by rw [hp.run_eq]; rfl)
  · rcases h.claimed with hg' | ⟨hw, hq⟩
    · exact absurd hg' hg
    · rw [hrest] at hq
      exact Or.inr ⟨hq, hw⟩

theorem Inv.start : Inv D Q prog guard (Sys.start c) where
  exclusive := by intro t t' a a' _ h; cases h
  locked := by intro t a h; cases h
  valid := by intro t a g h; cases h

/-- **Every step keeps the invariant.** -/
theorem Inv.step (hd : ∀ i g, guard i = some g → Disciplined D Q g (prog i))
    (h : Inv D Q prog guard sys) (hs : Step E L prog sys sys') : Inv D Q prog guard sys' := by
  cases hs with
  | begin t i _ =>
    refine ⟨fun u u' a a' hne hu hu' => ?_, fun u a hu => ?_, fun u a g hu hg => ?_⟩
    · rcases update_active hu with ⟨rfl, he⟩ | ⟨hne₁, hu⟩
      · cases he; simp
      · rcases update_active hu' with ⟨rfl, he⟩ | ⟨hne₂, hu'⟩
        · cases he; simp
        · exact h.exclusive u u' a a' hne hu hu'
    · rcases update_active hu with ⟨rfl, he⟩ | ⟨-, hu⟩
      · cases he; simp
      · exact h.locked u a hu
    · rcases update_active hu with ⟨rfl, he⟩ | ⟨-, hu⟩
      · cases he; exact Valid.begin (hd i g hg)
      · exact h.valid u a g hu hg
  | exec t a s k b ws ha hrest hx hfree =>
    have hnew : ∀ w ∈ a.writes ++ ws, ∀ x ∈ L.keys w, x ∈ a.held ++ L.taken s b ws := by
      intro w hw x hxw
      rcases List.mem_append.mp hw with hw | hw
      · exact List.mem_append_left _ (h.locked t a ha w hw x hxw)
      · exact List.mem_append_right _ (Locks.keys_subset_taken hw hxw)
    -- the locks that are taken now are free, and those held are nobody else's
    have hdisj : ∀ u a', u ≠ t → sys.active u = some a' →
        ∀ x ∈ a.held ++ L.taken s b ws, x ∉ a'.held := by
      intro u a' hu ha' x hx'
      rcases List.mem_append.mp hx' with hx' | hx'
      · exact h.exclusive t u a a' hu.symm ha ha' x hx'
      · exact hfree u a' hu ha' x hx'
    refine ⟨fun u u' a₁ a₂ hne hu hu' => ?_, fun u a₁ hu => ?_, fun u a₁ g hu hg => ?_⟩
    · rcases update_active hu with ⟨rfl, he⟩ | ⟨hne₁, hu₁⟩
      · cases he
        rcases update_active hu' with ⟨rfl, -⟩ | ⟨hne₂, hu₂⟩
        · exact absurd rfl hne
        · exact hdisj u' a₂ hne₂ hu₂
      · rcases update_active hu' with ⟨rfl, he⟩ | ⟨hne₂, hu₂⟩
        · cases he
          exact fun x hx' hx'' => hdisj u a₁ hne₁ hu₁ x hx'' hx'
        · exact h.exclusive u u' a₁ a₂ hne hu₁ hu₂
    · rcases update_active hu with ⟨rfl, he⟩ | ⟨-, hu⟩
      · cases he; exact hnew
      · exact h.locked u a₁ hu
    · rcases update_active hu with ⟨rfl, he⟩ | ⟨-, hu⟩
      · cases he; exact (h.valid u a g ha hg).exec hrest hx
      · exact h.valid u a₁ g hu hg
  | abort t a _ =>
    exact ⟨fun u u' a₁ a₂ hne hu hu' =>
        h.exclusive u u' a₁ a₂ hne (finish_active hu).2 (finish_active hu').2,
      fun u a₁ hu => h.locked u a₁ (finish_active hu).2,
      fun u a₁ g hu hg => h.valid u a₁ g (finish_active hu).2 hg⟩
  | commit t a r ha _ =>
    refine ⟨fun u u' a₁ a₂ hne hu hu' =>
        h.exclusive u u' a₁ a₂ hne (finish_active hu).2 (finish_active hu').2,
      fun u a₁ hu => h.locked u a₁ (finish_active hu).2, fun u a₁ g hu hg => ?_⟩
    obtain ⟨hne, hactive⟩ := finish_active hu
    -- what the others read is locked by them, so the commit leaves it as it was
    have hapart : ∀ x ∈ a.held, x ∉ a₁.held := h.exclusive t u a a₁ hne.symm ha hactive
    exact (h.valid u a₁ g hactive hg).commit_other (h.locked t a ha) hapart

theorem Reachable.inv (hd : ∀ i g, guard i = some g → Disciplined D Q g (prog i))
    (h : Reachable E L prog c sys) : Inv D Q prog guard sys :=
  h.induct Inv.start fun _ _ _ hi hs => hi.step hd hs

/-- What a list of transactions leaves, run one after another. -/
def serial (E : Engine Stmt σ W ε) (prog : ι → Tx Stmt ε ρ) (is : List ι) (c : σ) : σ :=
  is.foldl (fun c i => E.effect (prog i) c) c

theorem serial_append (is js : List ι) (c : σ) :
    serial E prog (is ++ js) c = serial E prog js (serial E prog is c) := List.foldl_append

/-- **Serializability.** Where every transaction keeps both disciplines,
the committed state of any interleaving is that of running the committed
transactions one after another, in commit order. -/
theorem Reachable.serializable (hg : ∀ i, ∃ g, guard i = some g)
    (hd : ∀ i g, guard i = some g → Disciplined D Q g (prog i)) (h : Reachable E L prog c sys) :
    sys.committed = serial E prog (sys.history.map Prod.fst) c := by
  refine h.induct (P := fun sys => sys.committed = serial E prog (sys.history.map Prod.fst) c)
    rfl fun sys sys' hr ih hs => ?_
  cases hs with
  | begin | exec | abort => exact ih
  | commit t a r ha hrest =>
    obtain ⟨g, hga⟩ := hg a.label
    have hv := (hr.inv hd).valid t a g ha hga
    rw [List.map_append, serial_append, ← ih]
    exact (hv.effect_eq (hd _ _ hga) hrest).symm

/-- **And each of them answers what the serial run answers**, or as `Q`
says and with no effect. -/
theorem Reachable.history_run (hg : ∀ i, ∃ g, guard i = some g)
    (hd : ∀ i g, guard i = some g → Disciplined D Q g (prog i)) (h : Reachable E L prog c sys)
    {pre post : List (ι × ρ)} {i : ι} {r : ρ} (hh : sys.history = pre ++ (i, r) :: post) :
    (∃ c', E.run (prog i) (serial E prog (pre.map Prod.fst) c) = .ok (r, c')) ∨
      Q r ∧ E.effect (prog i) (serial E prog (pre.map Prod.fst) c) =
        serial E prog (pre.map Prod.fst) c := by
  refine h.induct (P := fun sys => ∀ pre post i r, sys.history = pre ++ (i, r) :: post →
    (∃ c', E.run (prog i) (serial E prog (pre.map Prod.fst) c) = .ok (r, c')) ∨
      Q r ∧ E.effect (prog i) (serial E prog (pre.map Prod.fst) c) =
        serial E prog (pre.map Prod.fst) c) ?_ ?_ pre post i r hh
  · intro pre post i r hh
    simp [Sys.start] at hh
  · intro sys sys' hr ih hs pre post i r hh
    cases hs with
    | begin | exec | abort => exact ih pre post i r hh
    | commit t a r' ha hrest =>
      rcases List.eq_nil_or_concat post with rfl | ⟨post, x, rfl⟩
      · obtain ⟨rfl, he⟩ := List.append_inj' hh rfl
        cases he
        obtain ⟨g, hga⟩ := hg a.label
        have hv := (hr.inv hd).valid t a g ha hga
        rw [← hr.serializable hg hd]
        rcases hv.run_eq hrest with hrun | ⟨hq, hw⟩
        · exact Or.inl ⟨_, hrun⟩
        · refine Or.inr ⟨hq, ?_⟩
          rw [hv.effect_eq (hd _ _ hga) hrest, hw, E.applyAll_nil]
      · rw [List.concat_eq_append, ← List.cons_append, ← List.append_assoc] at hh
        exact ih pre post i r (List.append_inj' hh rfl).1

/-- **The commit rule.** What every run of a transaction keeps, with its
answer added to the history, holds of every interleaving; where a
transaction may be overtaken, it has to keep that too. -/
theorem Reachable.induct_commits {P : List (ι × ρ) → σ → Prop} (hg : ∀ i, ∃ g, guard i = some g)
    (hd : ∀ i g, guard i = some g → Disciplined D Q g (prog i)) (h0 : P [] c)
    (hrun : ∀ history c i r c', P history c → E.run (prog i) c = .ok (r, c') →
      P (history ++ [(i, r)]) c')
    (hidle : ∀ history c i r, P history c → Q r → P (history ++ [(i, r)]) c)
    (h : Reachable E L prog c sys) : P sys.history sys.committed := by
  refine h.induct (P := fun sys => P sys.history sys.committed) h0 fun sys sys' hr ih hs => ?_
  cases hs with
  | begin | exec | abort => exact ih
  | commit t a r ha hrest =>
    obtain ⟨g, hga⟩ := hg a.label
    rcases ((hr.inv hd).valid t a g ha hga).run_eq hrest with hran | ⟨hq, hw⟩
    · exact hrun _ _ _ _ _ ih hran
    · rw [Sys.view, hw, E.applyAll_nil]
      exact hidle _ _ _ _ ih hq

end Machine

end Transactions
