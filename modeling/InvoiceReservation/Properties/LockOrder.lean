import InvoiceReservation.Helpers.LockOrder
import InvoiceReservation.Properties.Legality
/-!
# No deadlock between row locks

A reservation's id is at home in one program, over all that is committed
and all that is under way, and whoever locks it has that program. So the
only keys anybody waits for are taken in order, no two transactions ever
wait for each other, and the database has no deadlock to resolve by
failing one of them.
-/

namespace InvoiceReservation

open Transactions

variable {β : Type} {s : Stmt β} {p q id : Uuid} {b : β} {ws : List Write}

section System

variable [Sha256]

/-- The states that transactions on rows can reach from a database. -/
abbrev Contended (start : Db) (sys : Sys Stmt Db Write Failure RowReply RowTransaction Key) :
    Prop :=
  Reachable engine locks RowTransaction.tx start sys

variable {start : Db} {sys sys' : Sys Stmt Db Write Failure RowReply RowTransaction Key}

omit [Sha256] in
/-- A program has a row with the id, committed or written by a transaction
under way. -/
def HomeIn (sys : Sys Stmt Db Write Failure RowReply RowTransaction Key) (id p : Uuid) : Prop :=
  sys.committed.Home id p ∨ ∃ t a, sys.active t = some a ∧ ∃ w ∈ a.writes, w.Home id p

omit [Sha256] in
/-- An id is at home in one program, and who locks it has that program. -/
structure Housed (sys : Sys Stmt Db Write Failure RowReply RowTransaction Key) : Prop where
  unique : ∀ id p q, HomeIn sys id p → HomeIn sys id q → p = q
  owned : ∀ t a id, sys.active t = some a → .reservation id ∈ a.held →
    ∃ p, .program p ∈ a.held ∧ ∀ q, HomeIn sys id q → q = p

omit [Sha256] in
/-- What a transaction sees is committed or its own. -/
theorem homeIn_view {t : ℕ} {a : Active Stmt Write Failure RowReply RowTransaction Key}
    (ha : sys.active t = some a) (h : (sys.view engine a).Home id p) : HomeIn sys id p := by
  rcases home_applyAll.mp h with hw | hc
  · exact Or.inr ⟨t, a, ha, hw⟩
  · exact Or.inl hc

/-- Locks are exclusive, and what is written is locked. -/
theorem Contended.inv (h : Contended start sys) :
    Transactions.Inv keyed (fun _ : RowReply => True) RowTransaction.tx (fun _ => none) sys :=
  Reachable.inv (fun _ _ hg => nomatch hg) h

omit [Sha256] in
/-- A step that brings no row and no lock. -/
theorem Housed.shrink (h : Housed sys) (hhome : ∀ id p, HomeIn sys' id p → HomeIn sys id p)
    (hactive : ∀ t a, sys'.active t = some a → a.held = [] ∨ sys.active t = some a) :
    Housed sys' := by
  refine ⟨fun id p q hp hq => h.unique id p q (hhome id p hp) (hhome id q hq),
    fun t a id ha hid => ?_⟩
  rcases hactive t a ha with hnil | ha
  · rw [hnil] at hid
    cases hid
  · obtain ⟨p, hp, hall⟩ := h.owned t a id ha hid
    exact ⟨p, hp, fun q hq => hall q (hhome id q hq)⟩

/-- **A statement that runs**: what it brings is at home where it was, or
nowhere, for its id is locked by nobody else. -/
theorem Housed.exec (h : Housed sys)
    (hinv : Transactions.Inv keyed (fun _ : RowReply => True) RowTransaction.tx (fun _ => none) sys)
    {t : ℕ} {a : Active Stmt Write Failure RowReply RowTransaction Key}
    {k : β → Transaction RowReply} (ha : sys.active t = some a)
    (hclimbs : ∀ q, s.sheltering = some q → .program q ∈ a.held)
    (hx : engine.exec s (sys.view engine a) = .ok (b, ws))
    (hfree : ∀ t' a', t' ≠ t → sys.active t' = some a' → ∀ x ∈ locks.taken s b ws, x ∉ a'.held) :
    Housed { sys with
      active := Function.update sys.active t
        (some ⟨a.label, k b, a.writes ++ ws, a.held ++ locks.taken s b ws⟩) } := by
  -- a home after the statement is one from before, or the statement brings the row
  have hcases : ∀ id p, HomeIn { sys with
      active := Function.update sys.active t
        (some ⟨a.label, k b, a.writes ++ ws, a.held ++ locks.taken s b ws⟩) } id p →
      HomeIn sys id p ∨ ∃ w ∈ ws, w.Home id p := by
    rintro id p (hc | ⟨u, a', hu, w, hw, hhome⟩)
    · exact Or.inl (Or.inl hc)
    · rcases update_active hu with ⟨rfl, he⟩ | ⟨-, hu⟩
      · cases he
        rcases List.mem_append.mp hw with hw | hw
        · exact Or.inl (Or.inr ⟨u, a, ha, w, hw, hhome⟩)
        · exact Or.inr ⟨w, hw, hhome⟩
      · exact Or.inl (Or.inr ⟨u, a', hu, w, hw, hhome⟩)
  -- an id that is brought is at home in the program it is brought to, and in no other
  have hbrought : ∀ id p q, (∃ w ∈ ws, w.Home id p) →
      (HomeIn sys id q ∨ ∃ w ∈ ws, w.Home id q) → q = p := by
    rintro id p q ⟨w, hw, hhome⟩ hq
    have hid : .reservation id ∈ locks.taken s b ws := Locks.keys_subset_taken hw hhome.keys.1
    rcases Stmt.home_written hx hw hhome with ⟨-, hview⟩ | ⟨-, hnowhere, hone⟩
    · have hp := homeIn_view ha hview
      rcases hq with hq | ⟨w', hw', hq⟩
      · exact h.unique id q p hq hp
      · rcases Stmt.home_written hx hw' hq with ⟨-, hview'⟩ | ⟨-, hnowhere, -⟩
        · exact h.unique id q p (homeIn_view ha hview') hp
        · exact absurd hview (hnowhere p)
    · rcases hq with (hq | ⟨u, a', hu, w', hw', hq⟩) | ⟨w', hw', hq⟩
      · exact absurd (home_applyAll.mpr (Or.inr hq)) (hnowhere q)
      · by_cases hut : u = t
        · subst hut
          rw [ha] at hu
          cases hu
          exact absurd (home_applyAll.mpr (Or.inl ⟨w', hw', hq⟩)) (hnowhere q)
        · exact absurd (hinv.locked u a' hu w' hw' _ hq.keys.1) (hfree u a' hut hu _ hid)
      · exact hone w' hw' q hq
  have hunique : ∀ id p q, (HomeIn sys id p ∨ ∃ w ∈ ws, w.Home id p) →
      (HomeIn sys id q ∨ ∃ w ∈ ws, w.Home id q) → p = q := by
    intro id p q hp hq
    rcases hq with hq | hq
    · rcases hp with hp | hp
      · exact h.unique id p q hp hq
      · exact (hbrought id p q hp (Or.inl hq)).symm
    · exact hbrought id q p hq hp
  refine ⟨fun id p q hp hq => hunique id p q (hcases id p hp) (hcases id q hq),
    fun u a' id hu hid => ?_⟩
  rcases update_active hu with ⟨rfl, he⟩ | ⟨hne, hu⟩
  · cases he
    by_cases htaken : .reservation id ∈ locks.taken s b ws
    · rcases Stmt.home_taken hx htaken with ⟨p, hs, hview⟩ | ⟨-, p, hp, hprogram⟩
      · exact ⟨p, List.mem_append_left _ (hclimbs p hs), fun q hq =>
          hunique id q p (hcases id q hq) (Or.inl (homeIn_view ha hview))⟩
      · exact ⟨p, List.mem_append_right _ hprogram, fun q hq => hbrought id p q hp (hcases id q hq)⟩
    · obtain ⟨p, hp, hall⟩ := h.owned u a id ha ((List.mem_append.mp hid).resolve_right htaken)
      refine ⟨p, List.mem_append_left _ hp, fun q hq => ?_⟩
      rcases hcases id q hq with hq | ⟨w, hw, hq⟩
      · exact hall q hq
      · exact absurd (Locks.keys_subset_taken hw hq.keys.1) htaken
  · obtain ⟨p, hp, hall⟩ := h.owned u a' id hu hid
    refine ⟨p, hp, fun q hq => ?_⟩
    rcases hcases id q hq with hq | ⟨w, hw, hq⟩
    · exact hall q hq
    · exact absurd hid (hfree u a' hne hu _ (Locks.keys_subset_taken hw hq.keys.1))

/-- What shelters a statement under way is locked. -/
theorem Contended.sheltered (h : Contended start sys) {t : ℕ}
    {a : Active Stmt Write Failure RowReply RowTransaction Key} {k : β → Transaction RowReply}
    (ha : sys.active t = some a) (hrest : a.rest = .exec s k)
    (hx : engine.exec s (sys.view engine a) = .ok (b, ws)) (hs : s.sheltering = some p) :
    .program p ∈ a.held := by
  obtain ⟨r, -, hclimbs⟩ := Reachable.climbs RowTransaction.climbs h t a ha
  rw [hrest] at hclimbs
  have hshelter : s.shelter = some (.program p) := by simp [Stmt.shelter, hs]
  obtain ⟨⟨g, hg, hheld⟩ | ⟨hnone, -⟩, -⟩ := hclimbs _ b ws hx
  · exact Option.some.inj (hshelter.symm.trans hg) ▸ hheld
  · cases hshelter.symm.trans hnone

/-- **Every reachable state is housed**, where the database is one whose ids
are of one program each. -/
theorem Contended.housed (hstart : ∀ id p q, start.Home id p → start.Home id q → p = q)
    (h : Contended start sys) : Housed sys := by
  refine h.induct (P := Housed) ⟨?_, fun t a id ha => by cases ha⟩ fun sys sys' hr ih hs => ?_
  · rintro id p q (hp | ⟨t, a, ha, -⟩) (hq | ⟨t', a', ha', -⟩)
    · exact hstart id p q hp hq
    all_goals cases ‹_ = some _›
  cases hs with
  | begin t i hnone =>
    refine ih.shrink (fun id p hp => ?_) fun u a hu => ?_
    · rcases hp with hc | ⟨u, a, hu, w, hw, hhome⟩
      · exact Or.inl hc
      · rcases update_active hu with ⟨-, he⟩ | ⟨-, hu⟩
        · cases he
          cases hw
        · exact Or.inr ⟨u, a, hu, w, hw, hhome⟩
    · rcases update_active hu with ⟨-, he⟩ | ⟨-, hu⟩
      · cases he
        exact Or.inl rfl
      · exact Or.inr hu
  | exec t a s k b ws ha hrest hx hfree =>
    exact ih.exec (Contended.inv hr) ha (fun q hq => Contended.sheltered hr ha hrest hx hq) hx hfree
  | abort t a ha =>
    refine ih.shrink (fun id p hp => ?_) fun u a hu => Or.inr (finish_active hu).2
    rcases hp with hc | ⟨u, a, hu, hw⟩
    · exact Or.inl hc
    · exact Or.inr ⟨u, a, (finish_active hu).2, hw⟩
  | commit t a r ha hrest =>
    refine ih.shrink (fun id p hp => ?_) fun u a hu => Or.inr (finish_active hu).2
    rcases hp with hc | ⟨u, a, hu, hw⟩
    · exact homeIn_view ha hc
    · exact Or.inr ⟨u, a, (finish_active hu).2, hw⟩

/-- **Whoever waits holds only keys that rank below.** Nobody waits for
reservations of a program it has locked. -/
theorem Contended.lockOrder (hstart : ∀ id p q, start.Home id p → start.Home id q → p = q)
    (h : Contended start sys) : LockOrder engine locks Key.rank sys := by
  refine Reachable.lockOrder RowTransaction.climbs h.inv.exclusive ?_ h
  intro t t' a a' β s b ws g hne ha ha' hx hs hg x hxt hheld
  obtain ⟨p, hp, rfl⟩ := Option.map_eq_some_iff.mp hs
  have hexclusive := h.inv.exclusive t t' a a' hne ha ha' _ hg
  rcases Stmt.taken_sheltered hp hx hxt with rfl | ⟨id, rfl, hhome⟩
  · exact hexclusive hheld
  · -- who holds the id has the program it is at home in
    obtain ⟨q, hq, hall⟩ := (h.housed hstart).owned t' a' id ha' hheld
    rw [← hall p (homeIn_view ha hhome)] at hq
    exact hexclusive hq

omit [Sha256] in
/-- In a legal database an id is of one program. -/
theorem home_unique {db : Db} (h : db.Legal) (hp : db.Home id p) (hq : db.Home id q) : p = q := by
  obtain ⟨row, hrow, hid, rfl⟩ := hp
  obtain ⟨row', hrow', hid', rfl⟩ := hq
  exact congrArg (·.programId) (List.inj_on_of_nodup_map h.reservations.keys hrow hrow'
    (hid.trans hid'.symm))

/-- **No deadlock.** However reserves, releases, cancellations, events and
snapshots of any programs, holds, flags and seeds are interleaved, no
transaction ever waits, over any number of others, for itself; and however
those under way go on, all of them end, each by its own commit or its own
error. -/
theorem no_deadlock (hstart : start.Legal) (h : Contended start sys) :
    (∀ t, ¬ Relation.TransGen (Waits engine locks sys) t t) ∧ Drains engine locks sys := by
  have horder := fun sys' (hr : Contended start sys') =>
    hr.lockOrder fun _ _ _ => home_unique hstart
  exact ⟨fun t => (horder sys h).acyclic, Reachable.drains horder h⟩

end System

end InvoiceReservation

namespace InvoiceReservation

open Transactions

attribute [local instance] trafficSha256

example : programs.Pairwise fun a b => Uuid.ofText a.id < Uuid.ofText b.id := by decide +kernel

/-- A release and a reserve of the first program, the release waiting for the
reserve. -/
theorem no_deadlock_waiting : ∃ sys, Contended seeded sys ∧ Waits engine locks sys 1 0 ∧
    (∀ t, ¬ Relation.TransGen (Waits engine locks sys) t t) ∧ Drains engine locks sys := by
  have hsome : (seeded.program? (Uuid.ofText northwindUsdProgramId)).isSome = true := by
    rw [seeded_eq]
    decide +kernel
  have hlegal : seeded.Legal := by
    rw [seeded]
    exact Db.Legal.run legal_initial _
  generalize seeded = start at hsome hlegal
  obtain ⟨program, hprogram⟩ := Option.isSome_iff_exists.mp hsome
  have hlock : engine.exec (.lockProgram (Uuid.ofText northwindUsdProgramId)) start =
      .ok (some program, []) := by
    rw [engine_exec, Stmt.send_of_nil rfl, Stmt.exec, hprogram]
  generalize hreserve : RowTransaction.locked
    (.reserve (callAt 1) (reserveCommand "req-00001" "INV-1" 100)) = reserve
  generalize hrelease : RowTransaction.locked
    (.release (callAt 2) (releaseCommand "req-00002" "INV-1" 100)) = release
  have hfirst : ∀ t : RowTransaction, t = reserve ∨ t = release →
      ∃ k, t.tx = .exec (.lockProgram (Uuid.ofText northwindUsdProgramId)) k := by
    rintro t (rfl | rfl)
    · exact hreserve ▸ ⟨_, rfl⟩
    · exact hrelease ▸ ⟨_, rfl⟩
  obtain ⟨k, hk⟩ := hfirst reserve (Or.inl rfl)
  obtain ⟨k', hk'⟩ := hfirst release (Or.inr rfl)
  have hreached : Contended start _ := Relation.ReflTransGen.refl.tail (.begin 0 reserve rfl)
    |>.tail (.exec 0 ⟨reserve, reserve.tx, [], []⟩ _ k (some program) [] rfl hk hlock
      fun t' a' hne ha' => absurd ha' (by simp [hne, Sys.start]))
    |>.tail (.begin 1 release rfl)
  refine ⟨_, hreached, ⟨.program (Uuid.ofText northwindUsdProgramId), ?_⟩,
    no_deadlock hlegal hreached⟩
  exact .intro ⟨release, release.tx, [], []⟩ _ _ k' (some program) [] (by decide) rfl rfl hk' hlock
    List.mem_cons_self List.mem_cons_self

end InvoiceReservation
