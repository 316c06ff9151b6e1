import InvoiceReservation.Model.Pool
import InvoiceReservation.Model.Seed
import Mathlib.Algebra.Order.BigOperators.Group.Finset
import Mathlib.Data.Fintype.Card
/-!
# The row lock and the pool

A reserve that has the program's row can need a second connection, and
those that wait for the row keep theirs. So the reserves of a program can
all wait for each other exactly when there are as many as the pool has
connections, and one of them is in a foreign currency.
-/

namespace InvoiceReservation

open Machines

variable {ι : Type} [Fintype ι] [DecidableEq ι] {setup : PoolSetup ι}
variable {s s' : PoolState ι} {a : PoolAction ι} {i : ι} {before after : ReservePhase}

/-! ## What an action does -/

/-- A step of one reserve, from one phase to another. -/
inductive Turn (setup : PoolSetup ι) (s s' : PoolState ι) (i : ι) :
    ReservePhase → ReservePhase → Prop
  | issue : s'.pending = s.pending ++ [i] → Turn setup s s' i .new .queued
  | connect : s.pending.head? = some i → s.used < setup.size → s'.pending = s.pending.tail →
      Turn setup s s' i .queued .connected
  | checkout (call : RateCall) : s.pending.head? = some i → s.used < setup.size →
      s'.pending = s.pending.tail → Turn setup s s' i (.awaitingRate call) (.querying call)
  | lock : (∀ j, (s.phase j).holdsRow = false) → s'.pending = s.pending →
      Turn setup s s' i .connected (.locked s.clock)
  | settle (asOf : Timestamp) : s'.pending = s.pending → Turn setup s s' i (.locked asOf) .done
  | price (asOf : Timestamp) : s'.pending = s.pending → Turn setup s s' i (.locked asOf) .priced
  | ask (asOf : Timestamp) (call : RateCall) : setup.Foreign i → s'.pending = s.pending ++ [i] →
      Turn setup s s' i (.locked asOf) (.awaitingRate call)
  | answer (call : RateCall) : s'.pending = s.pending → Turn setup s s' i (.querying call) .priced
  | finish : s'.pending = s.pending → Turn setup s s' i .priced .done

/-- **An action moves the clock, or one reserve.** -/
theorem step_cases (h : setup.step a s = some s') :
    (s'.phase = s.phase ∧ s'.pending = s.pending) ∨
      ∃ i after, s'.phase = Function.update s.phase i after ∧
        Turn setup s s' i (s.phase i) after := by
  cases a with
  | issue i =>
    simp only [PoolSetup.step] at h
    split at h
    · rename_i hp; cases h; exact Or.inr ⟨i, _, rfl, hp ▸ .issue rfl⟩
    · cases h
  | connect i =>
    simp only [PoolSetup.step] at h
    split at h
    · rename_i hturn
      split at h
      · rename_i hp; cases h; exact Or.inr ⟨i, _, rfl, hp ▸ .connect hturn.1 hturn.2 rfl⟩
      · rename_i call hp; cases h; exact Or.inr ⟨i, _, rfl, hp ▸ .checkout call hturn.1 hturn.2 rfl⟩
      · cases h
    · cases h
  | lock i =>
    simp only [PoolSetup.step] at h
    split at h
    · rename_i hp
      split at h
      · rename_i hfree; cases h; exact Or.inr ⟨i, _, rfl, hp ▸ .lock hfree rfl⟩
      · cases h
    · cases h
  | settle i =>
    simp only [PoolSetup.step] at h
    split at h
    · rename_i asOf hp; cases h; exact Or.inr ⟨i, _, rfl, hp ▸ .settle asOf rfl⟩
    · cases h
  | resolve i =>
    simp only [PoolSetup.step] at h
    split at h
    · rename_i asOf hp
      split at h
      · rename_i hforeign
        split at h
        · cases h; exact Or.inr ⟨i, _, rfl, hp ▸ .price asOf rfl⟩
        · cases h; exact Or.inr ⟨i, _, rfl, hp ▸ .ask asOf _ hforeign rfl⟩
      · cases h; exact Or.inr ⟨i, _, rfl, hp ▸ .price asOf rfl⟩
    · cases h
  | answer i =>
    simp only [PoolSetup.step] at h
    split at h
    · rename_i call hp; cases h; exact Or.inr ⟨i, _, rfl, hp ▸ .answer call rfl⟩
    · cases h
  | finish i =>
    simp only [PoolSetup.step] at h
    split at h
    · rename_i hp; cases h; exact Or.inr ⟨i, _, rfl, hp ▸ .finish rfl⟩
    · cases h
  | tick elapsed =>
    cases h
    exact Or.inl ⟨rfl, rfl⟩

/-- The connections in use change by those of the reserve that moved. -/
theorem used_update (hphase : s'.phase = Function.update s.phase i after) :
    s'.used + (s.phase i).connections = s.used + after.connections := by
  have hothers : ∑ j ∈ Finset.univ.erase i, (s'.phase j).connections =
      ∑ j ∈ Finset.univ.erase i, (s.phase j).connections := by
    refine Finset.sum_congr rfl fun j hj => ?_
    rw [hphase, Function.update_of_ne (Finset.ne_of_mem_erase hj)]
  have hself : (s'.phase i).connections = after.connections := by
    rw [hphase, Function.update_self]
  have hafter := Finset.add_sum_erase Finset.univ (fun j => (s'.phase j).connections)
    (Finset.mem_univ i)
  have hbefore := Finset.add_sum_erase Finset.univ (fun j => (s.phase j).connections)
    (Finset.mem_univ i)
  simp only [PoolState.used] at *
  omega

/-! ## The invariant -/

/-- What holds in every reached state: no more connections are in use than
there are, one reserve at most has the row, those are pending that wait for
a connection, and only a foreign reserve waits for a second. -/
structure Pooled (setup : PoolSetup ι) (s : PoolState ι) : Prop where
  used : s.used ≤ setup.size
  alone : ∀ i j, (s.phase i).holdsRow = true → (s.phase j).holdsRow = true → i = j
  pending : ∀ i, i ∈ s.pending ↔ (s.phase i).waits = true
  nodup : s.pending.Nodup
  foreign : ∀ i call, s.phase i = .awaitingRate call → setup.Foreign i

theorem pooled_start (h : setup.machine.start s) : Pooled setup s := by
  obtain ⟨hnew, hpending, -⟩ := h
  refine ⟨?_, ?_, ?_, ?_, ?_⟩ <;> simp [PoolState.used, hnew, hpending, ReservePhase.connections,
    ReservePhase.holdsRow, ReservePhase.waits]

/-- A turn takes no connection that is not free. -/
theorem Turn.used (h : Turn setup s s' i (s.phase i) after) (hused : s.used ≤ setup.size)
    (hphase : s'.phase = Function.update s.phase i after) : s'.used ≤ setup.size := by
  have hupdate := used_update hphase
  generalize s.phase i = before at h hupdate
  cases h <;> simp only [ReservePhase.connections] at hupdate <;> omega

omit [DecidableEq ι] in
/-- Who has the row after a turn had it before, or nobody had. -/
theorem Turn.holdsRow (h : Turn setup s s' i before after) (hafter : after.holdsRow = true) :
    before.holdsRow = true ∨ ∀ j, (s.phase j).holdsRow = false := by
  cases h with
  | lock hfree _ => exact Or.inr hfree
  | price _ _ => exact Or.inl rfl
  | ask _ _ _ _ => exact Or.inl rfl
  | checkout _ _ _ _ => exact Or.inl rfl
  | answer _ _ => exact Or.inl rfl
  | issue _ => cases hafter
  | connect _ _ _ => cases hafter
  | settle _ _ => cases hafter
  | finish _ => cases hafter

omit [DecidableEq ι] in
/-- **What is pending after a turn**: with the reserve at the end where it
begins to wait, without it at the head where it is served. -/
theorem Turn.pending (h : Turn setup s s' i before after) :
    before.waits = false ∧ after.waits = true ∧ s'.pending = s.pending ++ [i] ∨
    before.waits = true ∧ after.waits = false ∧ s.pending = i :: s'.pending ∨
    before.waits = false ∧ after.waits = false ∧ s'.pending = s.pending := by
  have htail : s.pending.head? = some i → s'.pending = s.pending.tail →
      s.pending = i :: s'.pending := fun hhead ht => by
    rw [ht]
    exact List.eq_cons_of_mem_head? hhead
  cases h with
  | issue hp => exact Or.inl ⟨rfl, rfl, hp⟩
  | ask _ _ _ hp => exact Or.inl ⟨rfl, rfl, hp⟩
  | connect hhead _ hp => exact Or.inr (Or.inl ⟨rfl, rfl, htail hhead hp⟩)
  | checkout _ hhead _ hp => exact Or.inr (Or.inl ⟨rfl, rfl, htail hhead hp⟩)
  | lock _ hp => exact Or.inr (Or.inr ⟨rfl, rfl, hp⟩)
  | settle _ hp => exact Or.inr (Or.inr ⟨rfl, rfl, hp⟩)
  | price _ hp => exact Or.inr (Or.inr ⟨rfl, rfl, hp⟩)
  | answer _ hp => exact Or.inr (Or.inr ⟨rfl, rfl, hp⟩)
  | finish hp => exact Or.inr (Or.inr ⟨rfl, rfl, hp⟩)

/-- **One action.** -/
theorem Pooled.step (h : Pooled setup s) (hs : setup.step a s = some s') : Pooled setup s' := by
  rcases step_cases hs with ⟨hphase, hpending⟩ | ⟨i, after, hphase, hturn⟩
  · have hused : s'.used = s.used := by simp only [PoolState.used, hphase]
    exact ⟨hused ▸ h.used, hphase ▸ h.alone, by rw [hpending, hphase]; exact h.pending,
      hpending ▸ h.nodup, hphase ▸ h.foreign⟩
  have hself : s'.phase i = after := by rw [hphase, Function.update_self]
  have hothers : ∀ j, j ≠ i → s'.phase j = s.phase j := fun j hj => by
    rw [hphase, Function.update_of_ne hj]
  refine ⟨hturn.used h.used hphase, fun j k hj hk => ?_, fun j => ?_, ?_, fun j call hj => ?_⟩
  · -- the row had one holder, and the reserve that moved took it from nobody
    have hheld : ∀ j, (s'.phase j).holdsRow = true →
        (s.phase j).holdsRow = true ∨ j = i ∧ ∀ k, (s.phase k).holdsRow = false := fun j hj => by
      by_cases he : j = i
      · subst he
        rw [hself] at hj
        exact (hturn.holdsRow hj).imp_right fun hfree => ⟨rfl, hfree⟩
      · rw [hothers j he] at hj
        exact Or.inl hj
    rcases hheld j hj with hj | ⟨rfl, hfree⟩ <;> rcases hheld k hk with hk | ⟨rfl, hfree'⟩
    · exact h.alone j k hj hk
    · rw [hfree' j] at hj; cases hj
    · rw [hfree k] at hk; cases hk
    · rfl
  · rcases hturn.pending with ⟨hb, ha, hp⟩ | ⟨hb, ha, hp⟩ | ⟨hb, ha, hp⟩
    · rw [hp, List.mem_append, h.pending, List.mem_singleton]
      by_cases hj : j = i
      · simp [hj, hself, ha]
      · simp [hj, hothers j hj]
    · have hmem := h.pending j
      have hnodup := h.nodup
      rw [hp, List.mem_cons] at hmem
      rw [hp, List.nodup_cons] at hnodup
      by_cases hj : j = i
      · subst hj
        simp [hself, ha, hnodup.1]
      · rw [hothers j hj, ← hmem]
        simp [hj]
    · rw [hp, h.pending]
      by_cases hj : j = i
      · rw [hj, hself, hb, ha]
      · rw [hothers j hj]
  · rcases hturn.pending with ⟨hb, ha, hp⟩ | ⟨hb, ha, hp⟩ | ⟨hb, ha, hp⟩
    · rw [hp, List.nodup_append]
      refine ⟨h.nodup, by simp, fun x hx y hy he => ?_⟩
      rw [List.mem_singleton.mp hy] at he
      subst he
      rw [(h.pending x).mp hx] at hb
      cases hb
    · have hnodup := h.nodup
      rw [hp] at hnodup
      exact hnodup.of_cons
    · exact hp ▸ h.nodup
  · by_cases he : j = i
    · subst he
      rw [hself] at hj
      subst hj
      generalize s.phase j = before at hturn
      cases hturn with
      | ask _ _ hforeign _ => exact hforeign
    · exact h.foreign j call (hothers j he ▸ hj)

theorem pooled_reached (h : setup.machine.Reached s) : Pooled setup s :=
  h.induct (fun _ => pooled_start) fun _ _ _ hp hs => hp.step hs

/-! ## Progress -/

/-- The first that waits for a connection is given one that is free. -/
theorem Pooled.canStep_of_free (h : Pooled setup s) (hwaits : (s.phase i).waits = true)
    (hfree : s.used < setup.size) : setup.CanStep s := by
  obtain ⟨j, rest, hp⟩ := List.exists_cons_of_ne_nil
    (List.ne_nil_of_mem ((h.pending i).mpr hwaits))
  have hj : (s.phase j).waits = true := (h.pending j).mp (by rw [hp]; exact List.mem_cons_self)
  refine ⟨.connect j, rfl, ?_⟩
  simp only [PoolSetup.step, hp, List.head?_cons, hfree, and_self, if_true]
  cases hphase : s.phase j with
  | queued => rfl
  | awaitingRate call => rfl
  | _ => rw [hphase] at hj; cases hj

/-- What a reserve can be at where none can take a step. -/
theorem phase_of_stuck (hstuck : ¬ setup.CanStep s) (i : ι) :
    s.phase i = .queued ∨ s.phase i = .connected ∨ (∃ call, s.phase i = .awaitingRate call) ∨
      s.phase i = .done := by
  have hnot : ∀ a : PoolAction ι, a.actor.isSome = true → setup.step a s = none := fun a ha =>
    Option.not_isSome_iff_eq_none.mp fun hs => hstuck ⟨a, ha, hs⟩
  cases hp : s.phase i with
  | new => simpa [PoolSetup.step, hp] using hnot (.issue i) rfl
  | queued => exact Or.inl rfl
  | connected => exact Or.inr (Or.inl rfl)
  | locked asOf => simpa [PoolSetup.step, hp] using hnot (.settle i) rfl
  | awaitingRate call => exact Or.inr (Or.inr (Or.inl ⟨call, rfl⟩))
  | querying call => simpa [PoolSetup.step, hp] using hnot (.answer i) rfl
  | priced => simpa [PoolSetup.step, hp] using hnot (.finish i) rfl
  | done => exact Or.inr (Or.inr (Or.inr rfl))

/-- **Some reserve can take a step** while one has not ended, where the pool
has a connection for each and one more, or no reserve is foreign. -/
theorem Pooled.canStep (h : Pooled setup s) (hsize : 0 < setup.size)
    (hsetup : Fintype.card ι < setup.size ∨ ∀ i, ¬ setup.Foreign i) (hu : s.Unfinished) :
    setup.CanStep s := by
  by_contra hstuck
  have hphase := phase_of_stuck hstuck
  by_cases hrate : ∃ i call, s.phase i = .awaitingRate call
  · -- the holder of the row waits for a second connection, and each other has one at most
    obtain ⟨i, call, hi⟩ := hrate
    have hfew : Fintype.card ι < setup.size :=
      hsetup.resolve_right fun hnone => hnone i (h.foreign i call hi)
    have hone : ∀ j, (s.phase j).connections ≤ 1 := fun j => by
      rcases hphase j with hj | hj | ⟨_, hj⟩ | hj <;> simp [hj, ReservePhase.connections]
    have hused : s.used ≤ Fintype.card ι := by
      have hsum := Finset.sum_le_card_nsmul Finset.univ (fun j => (s.phase j).connections) 1
        fun j _ => hone j
      simpa [PoolState.used] using hsum
    exact hstuck (h.canStep_of_free (i := i) (by rw [hi]; rfl) (hused.trans_lt hfew))
  · -- nobody has the row
    have hfree : ∀ j, (s.phase j).holdsRow = false := fun j => by
      rcases hphase j with hj | hj | ⟨call, hj⟩ | hj
      · rw [hj]; rfl
      · rw [hj]; rfl
      · exact absurd ⟨j, call, hj⟩ hrate
      · rw [hj]; rfl
    by_cases hconnected : ∃ i, s.phase i = .connected
    · obtain ⟨i, hi⟩ := hconnected
      refine hstuck ⟨.lock i, rfl, ?_⟩
      simp [PoolSetup.step, hi, hfree]
    · have hused : s.used = 0 := by
        refine Finset.sum_eq_zero fun j _ => ?_
        rcases hphase j with hj | hj | ⟨call, hj⟩ | hj
        · rw [hj]; rfl
        · exact absurd ⟨j, hj⟩ hconnected
        · exact absurd ⟨j, call, hj⟩ hrate
        · rw [hj]; rfl
      obtain ⟨i, hi⟩ := hu
      have hwaits : (s.phase i).waits = true := by
        rcases hphase i with hj | hj | ⟨call, hj⟩ | hj
        · rw [hj]; rfl
        · exact absurd ⟨i, hj⟩ hconnected
        · exact absurd ⟨i, call, hj⟩ hrate
        · rw [hj] at hi; cases hi
      exact hstuck (h.canStep_of_free hwaits (hused ▸ hsize))

/-! ## Deadlock -/

/-- Reserves that are issued one after another wait in that order. -/
theorem run_issue {reserves : List ι} (hnodup : reserves.Nodup)
    (hnew : ∀ i ∈ reserves, s.phase i = .new) :
    ∃ s', setup.machine.run (reserves.map .issue) s = some s' ∧
      (∀ i, s'.phase i = if i ∈ reserves then .queued else s.phase i) ∧
      s'.pending = s.pending ++ reserves ∧ s'.cache = s.cache ∧ s'.used = s.used := by
  induction reserves generalizing s with
  | nil => exact ⟨s, rfl, by simp, by simp, rfl, rfl⟩
  | cons i reserves ih =>
    obtain ⟨hi, hnodup⟩ := List.nodup_cons.mp hnodup
    have hphase := hnew i List.mem_cons_self
    obtain ⟨c, hc⟩ : ∃ c : PoolState ι,
        c = { s.move i .queued with pending := s.pending ++ [i] } := ⟨_, rfl⟩
    have hmoved : c.phase = Function.update s.phase i .queued := by rw [hc]; rfl
    have hothers : ∀ j, j ≠ i → c.phase j = s.phase j := fun j hj => by
      rw [hmoved, Function.update_of_ne hj]
    have hstep : setup.step (.issue i) s = some c := by
      simp only [PoolSetup.step, hphase, hc]
    have hupdate := used_update hmoved
    simp only [hphase, ReservePhase.connections, Nat.add_zero] at hupdate
    obtain ⟨s', hrun, hphases, hpending, hcache, hused⟩ :=
      @ih c hnodup fun j hj => by
        rw [hothers j fun he => hi (he ▸ hj)]
        exact hnew j (List.mem_cons_of_mem _ hj)
    refine ⟨s', (Machine.run_cons_of hstep).trans hrun, fun j => ?_, ?_,
      by rw [hcache, hc]; rfl, hused.trans hupdate⟩
    · rw [hphases]
      by_cases hj : j = i
      · subst hj; simp [hmoved]
      · simp [hothers j hj, hj]
    · rw [hpending, hc]
      simp

/-- Those first in turn connect, as long as there are connections. -/
theorem run_connect {reserves rest : List ι} (hpending : s.pending = reserves ++ rest)
    (hnodup : reserves.Nodup) (hqueued : ∀ i ∈ reserves, s.phase i = .queued)
    (hroom : s.used + reserves.length ≤ setup.size) :
    ∃ s', setup.machine.run (reserves.map .connect) s = some s' ∧
      (∀ i, s'.phase i = if i ∈ reserves then .connected else s.phase i) ∧
      s'.pending = rest ∧ s'.cache = s.cache ∧ s'.used = s.used + reserves.length := by
  induction reserves generalizing s with
  | nil => exact ⟨s, rfl, by simp, hpending, rfl, rfl⟩
  | cons i reserves ih =>
    obtain ⟨hi, hnodup⟩ := List.nodup_cons.mp hnodup
    have hphase := hqueued i List.mem_cons_self
    rw [List.length_cons] at hroom
    obtain ⟨c, hc⟩ : ∃ c : PoolState ι,
        c = { s.move i .connected with pending := s.pending.tail } := ⟨_, rfl⟩
    have hmoved : c.phase = Function.update s.phase i .connected := by rw [hc]; rfl
    have hothers : ∀ j, j ≠ i → c.phase j = s.phase j := fun j hj => by
      rw [hmoved, Function.update_of_ne hj]
    have hstep : setup.step (.connect i) s = some c := by
      have hlt : s.used < setup.size := by omega
      simp only [PoolSetup.step, hpending, List.cons_append, List.head?_cons, hlt, and_self,
        if_true, hphase, hc]
    have hupdate := used_update hmoved
    simp only [hphase, ReservePhase.connections, Nat.add_zero] at hupdate
    obtain ⟨s', hrun, hphases, hpending', hcache, hused⟩ :=
      @ih c (by simp [hc, hpending]) hnodup
        (fun j hj => by
          rw [hothers j fun he => hi (he ▸ hj)]
          exact hqueued j (List.mem_cons_of_mem _ hj)) (by omega)
    refine ⟨s', (Machine.run_cons_of hstep).trans hrun, fun j => ?_, hpending',
      by rw [hcache, hc]; rfl, ?_⟩
    · rw [hphases]
      by_cases hj : j = i
      · subst hj; simp [hmoved]
      · simp [hothers j hj, hj]
    · rw [hused, hupdate, List.length_cons]
      omega

/-- The first to have the row waits for a connection more where its rate is
not cached. -/
theorem run_wait (hconnected : s.phase i = .connected)
    (hfree : ∀ j, (s.phase j).holdsRow = false) (hcache : ∀ key, s.cache key = none)
    (hforeign : setup.Foreign i) :
    ∃ s', setup.machine.run [.lock i, .resolve i] s = some s' ∧
      (∃ call, s'.phase i = .awaitingRate call) ∧ (∀ j, j ≠ i → s'.phase j = s.phase j) ∧
      s'.used = s.used := by
  obtain ⟨l, hl⟩ : ∃ l, l = s.move i (.locked s.clock) := ⟨_, rfl⟩
  have hlocked : l.phase = Function.update s.phase i (.locked s.clock) := by rw [hl]; rfl
  have hlock : setup.step (.lock i) s = some l := by
    simp [PoolSetup.step, hconnected, hfree, hl]
  have hself : l.phase i = .locked s.clock := by rw [hlocked, Function.update_self]
  have hmiss : (setup.beginRateFor l i s.clock).hit = none := by
    simp [PoolSetup.beginRateFor, beginRateFor, RateCall.hit, hl, PoolState.move, hcache]
  obtain ⟨w, hw⟩ : ∃ w : PoolState ι, w = { l.move i (.awaitingRate
      (setup.beginRateFor l i s.clock)) with pending := l.pending ++ [i] } := ⟨_, rfl⟩
  have hwaiting : w.phase = Function.update l.phase i (.awaitingRate
      (setup.beginRateFor l i s.clock)) := by rw [hw]; rfl
  have hresolve : setup.step (.resolve i) l = some w := by
    simp [PoolSetup.step, hself, hforeign, hmiss, hw]
  refine ⟨w, (Machine.run_cons_of hlock).trans (Machine.run_cons_of hresolve),
    ⟨_, by rw [hwaiting, Function.update_self]⟩, fun j hj => ?_, ?_⟩
  · rw [hwaiting, Function.update_of_ne hj, hlocked, Function.update_of_ne hj]
  · have h₁ := used_update hlocked
    have h₂ := used_update hwaiting
    rw [hconnected] at h₁
    rw [hself] at h₂
    simp only [ReservePhase.connections] at h₁ h₂
    omega

/-- **Nothing moves** where one has the row and waits for a connection, none
is free, and the others wait for one of the two. -/
theorem not_canStep {call : RateCall} (hrow : s.phase i = .awaitingRate call)
    (hothers : ∀ j, j ≠ i → s.phase j = .queued ∨ s.phase j = .connected)
    (hused : s.used = setup.size) : ¬ setup.CanStep s := by
  have hphase : ∀ j, s.phase j = .queued ∨ s.phase j = .connected ∨
      ∃ call, s.phase j = .awaitingRate call := fun j => by
    by_cases hj : j = i
    · exact Or.inr (Or.inr ⟨call, hj ▸ hrow⟩)
    · exact (hothers j hj).imp_right Or.inl
  have hheld : ¬ ∀ j, (s.phase j).holdsRow = false := fun hfree => by
    have hi := hfree i
    rw [hrow] at hi
    cases hi
  rintro ⟨a, hactor, hsome⟩
  cases a with
  | issue j => rcases hphase j with hj | hj | ⟨_, hj⟩ <;> simp [PoolSetup.step, hj] at hsome
  | connect j => simp [PoolSetup.step, hused] at hsome
  | lock j => rcases hphase j with hj | hj | ⟨_, hj⟩ <;> simp [PoolSetup.step, hj, hheld] at hsome
  | settle j => rcases hphase j with hj | hj | ⟨_, hj⟩ <;> simp [PoolSetup.step, hj] at hsome
  | resolve j => rcases hphase j with hj | hj | ⟨_, hj⟩ <;> simp [PoolSetup.step, hj] at hsome
  | answer j => rcases hphase j with hj | hj | ⟨_, hj⟩ <;> simp [PoolSetup.step, hj] at hsome
  | finish j => rcases hphase j with hj | hj | ⟨_, hj⟩ <;> simp [PoolSetup.step, hj] at hsome
  | tick _ => cases hactor

omit [Fintype ι] in
/-- Every reserve, a given one first. -/
theorem exists_all [Fintype ι] (i : ι) : ∃ all : List ι, all.length = Fintype.card ι ∧
    all.head? = some i ∧ all.Nodup ∧ ∀ j, j ∈ all := by
  refine ⟨i :: (Finset.univ.erase i).toList, ?_, rfl, ?_, fun j => ?_⟩
  · have hpos : 0 < Fintype.card ι := Fintype.card_pos_iff.mpr ⟨i⟩
    rw [List.length_cons, Finset.length_toList, Finset.card_erase_of_mem (Finset.mem_univ i),
      Finset.card_univ]
    omega
  · exact List.nodup_cons.mpr ⟨by simp, Finset.nodup_toList _⟩
  · by_cases hj : j = i <;> simp [hj]

/-- **As many reserves as connections, one of them foreign, can come to wait
for each other**: the foreign one has the row and waits for a connection,
and the connections are held by those that wait for the row. -/
theorem deadlock_reached (hsize : 0 < setup.size) (hmany : setup.size ≤ Fintype.card ι)
    (hforeign : setup.Foreign i) :
    ∃ s, setup.machine.Reached s ∧ s.Unfinished ∧ ¬ setup.CanStep s := by
  obtain ⟨all, hlength, hhead, hnodup, hmem⟩ := exists_all i
  obtain ⟨s₀, hs₀⟩ : ∃ s₀ : PoolState ι, s₀ = ⟨fun _ => .new, [], fun _ => none, 0⟩ := ⟨_, rfl⟩
  have hstart : setup.machine.start s₀ := by rw [hs₀]; exact ⟨fun _ => rfl, rfl, fun _ => rfl⟩
  have hnone : s₀.used = 0 := by rw [hs₀]; exact Finset.sum_eq_zero fun _ _ => rfl
  -- all are issued, and those the pool has connections for connect
  obtain ⟨s₁, hrun₁, hphase₁, hpending₁, hcache₁, hused₁⟩ :=
    @run_issue ι _ _ setup s₀ all hnodup fun _ _ => by rw [hs₀]
  have hqueued : ∀ j, s₁.phase j = .queued := fun j => by rw [hphase₁, if_pos (hmem j)]
  obtain ⟨s₂, hrun₂, hphase₂, -, hcache₂, hused₂⟩ :=
    @run_connect ι _ _ setup s₁ (all.take setup.size) (all.drop setup.size)
      (by rw [hpending₁, hs₀, List.take_append_drop]; rfl) (hnodup.sublist (List.take_sublist _ _))
      (fun j _ => hqueued j) (by rw [hused₁, hnone, List.length_take]; omega)
  have hwaiting : ∀ j, s₂.phase j = .queued ∨ s₂.phase j = .connected := fun j => by
    rw [hphase₂, hqueued]
    split
    · exact Or.inr rfl
    · exact Or.inl rfl
  have hfirst : s₂.phase i = .connected := by
    rw [hphase₂, if_pos]
    exact List.mem_of_mem_head? (by rw [List.head?_take, if_neg hsize.ne', hhead]; rfl)
  -- the foreign one is among them, and asks for a second
  obtain ⟨s₃, hrun₃, ⟨call, hcall⟩, hothers, hused₃⟩ :=
    @run_wait ι _ _ setup s₂ i hfirst
      (fun j => by rcases hwaiting j with hj | hj <;> rw [hj] <;> rfl)
      (fun key => by rw [hcache₂, hcache₁, hs₀]) hforeign
  refine ⟨s₃, (((Machine.Reached.start hstart).run hrun₁).run hrun₂).run hrun₃,
    ⟨i, by rw [hcall]; rfl⟩,
    not_canStep hcall (fun j hj => by rw [hothers j hj]; exact hwaiting j) ?_⟩
  rw [hused₃, hused₂, hused₁, hnone, List.length_take, hlength]
  omega

/-- **When the reserves of a program cannot deadlock**: exactly where the
pool has more connections than there are reserves, or all are in the
program's currency. -/
theorem deadlock_free_iff (hsize : 0 < setup.size) :
    (∀ s, setup.machine.Reached s → s.Unfinished → setup.CanStep s) ↔
      Fintype.card ι < setup.size ∨ ∀ i, ¬ setup.Foreign i := by
  refine ⟨fun h => ?_, fun hsetup s hs hu => (pooled_reached hs).canStep hsize hsetup hu⟩
  by_contra hnot
  obtain ⟨hmany, hforeign⟩ := not_or.mp hnot
  obtain ⟨i, hi⟩ := not_forall.mp hforeign
  obtain ⟨s, hs, hu, hstuck⟩ := deadlock_reached hsize (not_lt.mp hmany) (not_not.mp hi)
  exact hstuck (h s hs hu)

end InvoiceReservation

namespace InvoiceReservation

open Machines

/-- Two reserves of a program in another currency, on a pool of some size. -/
def foreignReserves (size : Nat) : PoolSetup (Fin 2) where
  size := size
  request i := ⟨northwindOrganisationId, northwindEurProgramId, toString i,
    Utf.units (toString i), 100, "USD", "northwind", toString i⟩
  program := Stmt.newProgram (Uuid.ofText northwindEurProgramId) northwindOrganisationId "EUR" 0
  rates := fxRates

theorem deadlock_free_iff_foreignReserves :
    (∀ s, (foreignReserves 3).machine.Reached s → s.Unfinished → (foreignReserves 3).CanStep s) ↔
      Fintype.card (Fin 2) < (foreignReserves 3).size ∨ ∀ i, ¬ (foreignReserves 3).Foreign i :=
  deadlock_free_iff (by decide)

/-- **Two reserves on a pool of two come to wait for each other.** -/
theorem two_reserves_deadlock : ∃ s, (foreignReserves 2).machine.Reached s ∧ s.Unfinished ∧
    ¬ (foreignReserves 2).CanStep s :=
  deadlock_reached (by decide) (by decide) (i := 0) (by decide)

end InvoiceReservation
