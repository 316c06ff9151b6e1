import InvoiceReservation.Common.Machine
import InvoiceReservation.Common.Table
/-!
# Facilities

A facility lends up to a limit. Part of it is in use elsewhere, and the
rest is taken by holders, each of them once, who give back what they took.
The limit and the use elsewhere move as they are told to, also where that
leaves more in use than the limit, which is then marked. `facility` is the
machine of these moves: a run of it is a list of moves each of which was
allowed where it was made.

What a run comes to can be read off its moves: what a holder has left is
the sum of its moves (`left_run`), no holder takes twice (`takes_once`),
and a facility within its limit stays there unless the limit or the use
elsewhere is moved (`within_run`).
-/

namespace Facilities

open Machines

variable {ι : Type} [DecidableEq ι]

/-- A facility, with what each holder that ever took has left. -/
structure Facility (ι : Type) where
  limit : ℤ
  elsewhere : ℤ
  holdings : List (ι × ℤ)
  marked : Bool
  deriving DecidableEq

/-- A move of a facility. -/
inductive Move (ι : Type)
  | take (holder : ι) (amount : ℤ)
  | give (holder : ι) (amount : ℤ)
  | limit (delta : ℤ)
  | elsewhere (delta : ℤ)
  | onset
  | cleared
  deriving DecidableEq

namespace Facility

/-- A facility nothing has been done to. -/
def empty : Facility ι := ⟨0, 0, [], false⟩

/-- What the holders have left. -/
def held (F : Facility ι) : ℤ := (F.holdings.map (·.2)).sum

/-- Whether more is in use than the limit. -/
def exceeded (F : Facility ι) : Bool := F.limit < F.held + F.elsewhere

/-- What a holder has left, if it ever took. -/
def left? (F : Facility ι) (i : ι) : Option ℤ := (Table.get Prod.fst i F.holdings).map (·.2)

/-- The same, nothing where it never took. -/
def left (F : Facility ι) (i : ι) : ℤ := (F.left? i).getD 0

/-- The facility with what one holder has left. -/
def setLeft (F : Facility ι) (i : ι) (amount : ℤ) : Facility ι :=
  { F with holdings := Table.put Prod.fst (i, amount) F.holdings }

end Facility

/-- **One move**, where it is allowed. -/
def step : Move ι → Facility ι → Option (Facility ι)
  | .take i amount, F =>
    if 0 < amount ∧ F.left? i = none ∧ F.held + F.elsewhere + amount ≤ F.limit then
      some (F.setLeft i amount)
    else none
  | .give i amount, F =>
    match F.left? i with
    | none => none
    | some n => if 0 < amount ∧ amount ≤ n then some (F.setLeft i (n - amount)) else none
  | .limit delta, F =>
    if 0 ≤ F.limit + delta then some { F with limit := F.limit + delta } else none
  | .elsewhere delta, F =>
    if 0 ≤ F.elsewhere + delta then some { F with elsewhere := F.elsewhere + delta } else none
  | .onset, F => if !F.marked && F.exceeded then some { F with marked := true } else none
  | .cleared, F => if F.marked && !F.exceeded then some { F with marked := false } else none

/-- The machine of a facility's moves. -/
def facility (ι : Type) [DecidableEq ι] : Machine (Facility ι) (Move ι) where
  start F := F = .empty
  step := step

/-- What a move gives a holder. -/
def Move.amount (i : ι) : Move ι → ℤ
  | .take j amount => if j = i then amount else 0
  | .give j amount => if j = i then -amount else 0
  | _ => 0

/-- The holder a move takes for. -/
def Move.taker? : Move ι → Option ι
  | .take i _ => some i
  | _ => none

/-- A move of the holders, and not of the limit or the use elsewhere. -/
def Move.isOwn : Move ι → Bool
  | .limit _ => false
  | .elsewhere _ => false
  | _ => true

variable {F F' : Facility ι} {i j : ι} {m : Move ι} {ms : List (Move ι)} {n amount : ℤ}

theorem Facility.left?_setLeft :
    (F.setLeft i n).left? j = if i = j then some n else F.left? j := by
  unfold Facility.left? Facility.setLeft
  dsimp only
  rw [Table.get_put]
  split <;> rfl

theorem Facility.held_setLeft (h : (F.left? i).getD 0 = amount) :
    (F.setLeft i n).held = F.held - amount + n := by
  subst h
  unfold Facility.left? Facility.held Facility.setLeft
  cases hget : Table.get Prod.fst i F.holdings with
  | none => simp [@Table.put_of_get_none _ _ _ Prod.fst (i, n) _ hget]
  | some found => exact @Table.sum_put _ _ _ Prod.fst (i, n) found _ (·.2) hget

/-- **What a move does**, from the holders' side. -/
inductive Moves (F : Facility ι) : Move ι → Facility ι → Prop
  | take (i : ι) (amount : ℤ) : 0 < amount → F.left? i = none →
      F.held + F.elsewhere + amount ≤ F.limit → Moves F (.take i amount) (F.setLeft i amount)
  | give (i : ι) (n amount : ℤ) : F.left? i = some n → 0 < amount → amount ≤ n →
      Moves F (.give i amount) (F.setLeft i (n - amount))
  | other (m : Move ι) (F' : Facility ι) : F'.holdings = F.holdings → m.taker? = none →
      (∀ i, m.amount i = 0) → 0 ≤ F'.limit ∨ F'.limit = F.limit →
      0 ≤ F'.elsewhere ∨ F'.elsewhere = F.elsewhere →
      (m.isOwn = true → F'.limit = F.limit ∧ F'.elsewhere = F.elsewhere) → Moves F m F'

theorem moves_of_step (h : step m F = some F') : Moves F m F' := by
  cases m with
  | take i amount =>
    simp only [step, Option.ite_none_right_eq_some, Option.some.injEq] at h
    obtain ⟨⟨hpositive, hnew, hroom⟩, rfl⟩ := h
    exact .take i amount hpositive hnew hroom
  | give i amount =>
    cases hleft : F.left? i with
    | none => simp only [step, hleft, reduceCtorEq] at h
    | some n =>
      simp only [step, hleft, Option.ite_none_right_eq_some, Option.some.injEq] at h
      obtain ⟨⟨hpositive, hle⟩, rfl⟩ := h
      exact .give i n amount hleft hpositive hle
  | limit delta =>
    simp only [step, Option.ite_none_right_eq_some, Option.some.injEq] at h
    obtain ⟨hsign, rfl⟩ := h
    exact .other _ _ rfl rfl (fun _ => rfl) (Or.inl hsign) (Or.inr rfl) nofun
  | elsewhere delta =>
    simp only [step, Option.ite_none_right_eq_some, Option.some.injEq] at h
    obtain ⟨hsign, rfl⟩ := h
    exact .other _ _ rfl rfl (fun _ => rfl) (Or.inr rfl) (Or.inl hsign) nofun
  | onset =>
    simp only [step, Option.ite_none_right_eq_some, Option.some.injEq] at h
    obtain ⟨-, rfl⟩ := h
    exact .other _ _ rfl rfl (fun _ => rfl) (Or.inr rfl) (Or.inr rfl) fun _ => ⟨rfl, rfl⟩
  | cleared =>
    simp only [step, Option.ite_none_right_eq_some, Option.some.injEq] at h
    obtain ⟨-, rfl⟩ := h
    exact .other _ _ rfl rfl (fun _ => rfl) (Or.inr rfl) (Or.inr rfl) fun _ => ⟨rfl, rfl⟩

theorem left?_of_holdings (h : F'.holdings = F.holdings) (i : ι) : F'.left? i = F.left? i := by
  unfold Facility.left?
  rw [h]

omit [DecidableEq ι] in
theorem held_of_holdings (h : F'.holdings = F.holdings) : F'.held = F.held := by
  unfold Facility.held
  rw [h]

/-! ## What a run comes to -/

/-- **What a holder has left is the sum of its moves.** -/
theorem Moves.left (h : Moves F m F') (i : ι) : F'.left i = F.left i + m.amount i := by
  unfold Facility.left
  cases h with
  | take j amount hpositive hnew hroom =>
    rw [Facility.left?_setLeft, Move.amount]
    by_cases hj : j = i
    · subst hj
      simp [hnew]
    · simp [hj]
  | give j n amount hleft hpositive hle =>
    rw [Facility.left?_setLeft, Move.amount]
    by_cases hj : j = i
    · subst hj
      simp [hleft, sub_eq_add_neg]
    · simp [hj]
  | other m F' hholdings htaker hamount hlimit helsewhere hown =>
    rw [left?_of_holdings hholdings, hamount, add_zero]

theorem left_run (h : (facility ι).run ms F = some F') (i : ι) :
    F'.left i = F.left i + (ms.map (·.amount i)).sum := by
  induction ms generalizing F with
  | nil =>
    cases h
    simp
  | cons m ms ih =>
    obtain ⟨between, hstep, hrest⟩ := Option.bind_eq_some_iff.mp h
    rw [ih hrest, (moves_of_step hstep).left i, List.map_cons, List.sum_cons, add_assoc]

/-- A holder that has taken has for ever. -/
theorem Moves.taken (h : Moves F m F') :
    (F'.left? i).isSome = true ↔ (F.left? i).isSome = true ∨ m.taker? = some i := by
  cases h with
  | take j amount hpositive hnew hroom =>
    rw [Facility.left?_setLeft, Move.taker?, Option.some.injEq]
    split
    · rename_i hj
      simp [hj]
    · rename_i hj
      simp [hj]
  | give j n amount hleft hpositive hle =>
    rw [Facility.left?_setLeft]
    by_cases hj : j = i
    · subst hj
      simp [hleft, Move.taker?]
    · simp [hj, Move.taker?]
  | other m F' hholdings htaker hamount hlimit helsewhere hown =>
    rw [left?_of_holdings hholdings, htaker]
    simp

/-- **No holder takes twice**, and none that had taken before. -/
theorem takes_once (h : (facility ι).run ms F = some F') :
    (ms.filterMap Move.taker?).Nodup ∧ ∀ i ∈ ms.filterMap Move.taker?, F.left? i = none := by
  induction ms generalizing F with
  | nil => exact ⟨List.nodup_nil, by simp⟩
  | cons m ms ih =>
    obtain ⟨between, hstep, hrest⟩ := Option.bind_eq_some_iff.mp h
    obtain ⟨hnodup, hnone⟩ := ih hrest
    have hmoves := moves_of_step hstep
    -- what takes later had not taken by then
    have hlater : ∀ i ∈ ms.filterMap Move.taker?, F.left? i = none ∧ m.taker? ≠ some i := by
      intro i hi
      have hbetween : ¬ (between.left? i).isSome = true := by simp [hnone i hi]
      rw [hmoves.taken, not_or] at hbetween
      exact ⟨Option.not_isSome_iff_eq_none.mp hbetween.1, hbetween.2⟩
    cases htaker : m.taker? with
    | none =>
      rw [List.filterMap_cons_none htaker]
      exact ⟨hnodup, fun i hi => (hlater i hi).1⟩
    | some j =>
      rw [List.filterMap_cons_some htaker]
      refine ⟨List.nodup_cons.mpr ⟨fun hj => (hlater j hj).2 htaker, hnodup⟩, fun i hi => ?_⟩
      rcases List.mem_cons.mp hi with rfl | hi
      · cases hmoves with
        | take i amount hpositive hnew hroom =>
          cases htaker
          exact hnew
        | give => cases htaker
        | other m F' hholdings hno => rw [hno] at htaker; cases htaker
      · exact (hlater i hi).1

/-- **A move of the holders leaves a facility within its limit.** -/
theorem Moves.within (h : Moves F m F') (hown : m.isOwn = true) (hwithin : F.exceeded = false) :
    F'.exceeded = false := by
  simp only [Facility.exceeded, decide_eq_false_iff_not, not_lt] at hwithin ⊢
  cases h with
  | take i amount hpositive hnew hroom =>
    have hheld := @Facility.held_setLeft _ _ F i amount 0 (by rw [hnew]; rfl)
    simp only [Facility.setLeft] at hheld ⊢
    omega
  | give i n amount hleft hpositive hle =>
    have hheld := @Facility.held_setLeft _ _ F i (n - amount) n (by rw [hleft]; rfl)
    simp only [Facility.setLeft] at hheld ⊢
    omega
  | other m F' hholdings htaker hamount hlimit helsewhere hsame =>
    obtain ⟨hl, he⟩ := hsame hown
    rw [held_of_holdings hholdings, hl, he]
    exact hwithin

theorem within_run (h : (facility ι).run ms F = some F') (hown : ∀ m ∈ ms, m.isOwn = true)
    (hwithin : F.exceeded = false) : F'.exceeded = false := by
  induction ms generalizing F with
  | nil =>
    cases h
    exact hwithin
  | cons m ms ih =>
    obtain ⟨between, hstep, hrest⟩ := Option.bind_eq_some_iff.mp h
    exact ih hrest (fun m' hm' => hown m' (List.mem_cons_of_mem _ hm'))
      ((moves_of_step hstep).within (hown m List.mem_cons_self) hwithin)

/-- Nothing of a facility is negative. -/
structure Facility.Sound (F : Facility ι) : Prop where
  limit : 0 ≤ F.limit
  elsewhere : 0 ≤ F.elsewhere
  left : ∀ i, 0 ≤ F.left i

theorem Moves.sound (h : Moves F m F') (hsound : F.Sound) : F'.Sound := by
  cases h with
  | take i amount hpositive hnew hroom =>
    refine ⟨hsound.limit, hsound.elsewhere, fun j => ?_⟩
    rw [Facility.left, Facility.left?_setLeft]
    split
    · exact hpositive.le
    · exact hsound.left j
  | give i n amount hleft hpositive hle =>
    refine ⟨hsound.limit, hsound.elsewhere, fun j => ?_⟩
    rw [Facility.left, Facility.left?_setLeft]
    split
    · exact sub_nonneg.mpr hle
    · exact hsound.left j
  | other m F' hholdings htaker hamount hlimit helsewhere hown =>
    refine ⟨?_, ?_, fun j => ?_⟩
    · rcases hlimit with h | h
      · exact h
      · exact h ▸ hsound.limit
    · rcases helsewhere with h | h
      · exact h
      · exact h ▸ hsound.elsewhere
    · rw [Facility.left, left?_of_holdings hholdings]
      exact hsound.left j

/-- **The rule of the machine**: every facility it reaches is sound. -/
theorem sound_of_reached (h : (facility ι).Reached F) : F.Sound := by
  refine h.induct (P := Facility.Sound) (fun F hstart => ?_) fun F F' m ih hs =>
    (moves_of_step hs).sound ih
  obtain rfl : F = .empty := hstart
  exact ⟨le_refl _, le_refl _, fun i => le_refl _⟩

end Facilities
