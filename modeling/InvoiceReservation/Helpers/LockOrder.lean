import InvoiceReservation.Common.LockOrder
import InvoiceReservation.Helpers.Locking
/-!
# The order of the locks

Every transaction that locks a program locks it first, and a seed locks
its programs in the order of their ids. After that come the request record
or the message a transaction inserts, then its snapshot's acknowledgement,
then a reservation's id. A program's lock shelters the rows of its
reservations: an id is of one program, and whoever locks it has that
program.
-/

namespace InvoiceReservation

open Transactions

/-! ## The order of the keys -/

/-- Programs in the order of their ids, then requests and messages, then
acknowledgements, then reservations. -/
def Key.rank : Key → ℕ
  | .program p => p.toNat
  | .request _ _ => 2 ^ 128
  | .message _ => 2 ^ 128
  | .acknowledgement _ => 2 ^ 128 + 1
  | .reservation _ => 2 ^ 128 + 2

/-- The program whose lock keeps others from the rows a statement locks. -/
def Stmt.sheltering : {β : Type} → Stmt β → Option Uuid
  | _, lockReservation p _ => some p
  | _, releaseReservation p _ _ _ _ _ => some p
  | _, cancelReservation p _ _ _ _ => some p
  | _, acknowledgeEcho p _ _ _ => some p
  | _, acknowledgeReservations p _ _ _ => some p
  | _, _ => none

/-- Its key. -/
def Stmt.shelter {β : Type} (s : Stmt β) : Option Key := s.sheltering.map .program

/-- The program a statement reads, or writes the row, the ledger or the
stream position of. -/
def Stmt.under : {β : Type} → Stmt β → Option Uuid
  | _, lockProgram p => some p
  | _, selectProgram p => some p
  | _, insertProgram p _ _ _ => some p
  | _, selectDuplicate p _ => some p
  | _, insertLedger p _ _ => some p
  | _, updatePosition p _ _ _ => some p
  | _, selectMessagesAt p _ _ => some p
  | _, selectEcho p _ => some p
  | _, advanceAppliedEffectiveAt p _ => some p
  | _, upsertStreamPosition p _ _ => some p
  | _, selectReservations p => some p
  | _, updateTreasuryVersion p _ _ _ => some p
  | _, flagInvestigation p => some p
  | _, holdProgram p => some p
  | _, _ => none

variable {α β : Type} {s : Stmt β} {p : Uuid} {c : Db} {b : β} {ws : List Write} {x : Key}

theorem takes_lockProgram {found : Option ProgramEntity} :
    Stmt.takes (.lockProgram p) found = found.toList.map fun _ => .program p := by
  cases found <;> rfl

theorem takes_lockReservation {invoiceId : String} {found : Option InvoiceReservationEntity} :
    Stmt.takes (.lockReservation p invoiceId) found =
      found.toList.map fun row => .reservation row.id := by
  cases found <;> rfl

/-- A new version of a program's row is filed under the program. -/
theorem keys_version (f : ProgramEntity → ProgramEntity) (hf : ∀ row, (f row).id = row.id)
    (hx : x ∈ ((c.program? p).toList.map fun row => Write.program (f row)).flatMap Write.keys) :
    x = .program p := by
  cases hp : c.program? p with
  | none => simp [hp] at hx
  | some row => simpa [hp, Write.keys, hf, Db.id_of_program? hp] using hx

/-- **Such a statement takes no key but the program's.** -/
theorem Stmt.taken_under (hs : s.under = some p) (hx : engine.exec s c = .ok (b, ws))
    (ht : x ∈ locks.taken s b ws) : x = .program p := by
  replace hx := Stmt.exec_of_send hx
  cases s <;> simp only [Stmt.under, Option.some.injEq, reduceCtorEq] at hs <;> subst hs
  case lockProgram =>
    cases hx
    simp only [Locks.taken, locks, takes_lockProgram, List.flatMap_nil, List.append_nil,
      List.mem_map] at ht
    obtain ⟨-, -, he⟩ := ht
    exact he.symm
  case selectProgram | selectDuplicate | selectEcho | selectReservations =>
    cases hx
    simp [Locks.taken, locks, Stmt.takes] at ht
  case selectMessagesAt =>
    obtain ⟨-, hx⟩ := guarded_ok.mp hx
    cases hx
    simp [Locks.taken, locks, Stmt.takes] at ht
  case insertProgram =>
    simp only [Stmt.exec] at hx
    split at hx
    · cases hx
      simp [Locks.taken, locks, Stmt.takes] at ht
    · obtain ⟨-, hx⟩ := guarded_ok.mp hx
      cases hx
      simpa [Locks.taken, locks, Stmt.takes, Write.keys, Stmt.newProgram] using ht
  case insertLedger =>
    obtain ⟨-, hx⟩ := guarded_ok.mp hx
    cases hx
    simp only [Locks.taken, locks, Stmt.takes, Write.keys, Stmt.ledgerRows, List.nil_append,
      List.flatMap_cons, List.flatMap_nil, List.append_nil, List.map_map, List.mem_map,
      Function.comp_apply] at ht
    obtain ⟨-, -, he⟩ := ht
    exact he.symm
  case updatePosition =>
    simp only [Stmt.exec] at hx
    split at hx
    · cases hx
      simp [Locks.taken, locks, Stmt.takes] at ht
    · rename_i row hp
      obtain ⟨-, hx⟩ := guarded_ok.mp hx
      cases hx
      simpa [Locks.taken, locks, Stmt.takes, Write.keys, Stmt.withPosition,
        Db.id_of_program? hp] using ht
  case advanceAppliedEffectiveAt =>
    cases hx
    refine keys_version (fun row => Stmt.withAppliedEffectiveAt row _) (fun row => ?_) ht
    unfold Stmt.withAppliedEffectiveAt
    split <;> rfl
  case upsertStreamPosition =>
    obtain ⟨-, hx⟩ := guarded_ok.mp hx
    cases hx
    simp only [Locks.taken, locks, Stmt.takes, List.nil_append, Stmt.streamWrites] at ht
    split at ht
    · simpa [Write.keys, Stmt.streamRow] using ht
    · split at ht
      · simpa [Write.keys, Stmt.streamRow] using ht
      · simp at ht
  case updateTreasuryVersion =>
    obtain ⟨-, hx⟩ := guarded_ok.mp hx
    cases hx
    exact keys_version (fun row => Stmt.withTreasuryVersion row _ _ _) (fun _ => rfl) ht
  case flagInvestigation =>
    cases hx
    obtain ⟨w, hw, hxw⟩ := List.mem_flatMap.mp ht
    obtain ⟨row, hrow, rfl⟩ := List.mem_map.mp hw
    have hp := Option.mem_toList.mp (List.mem_filter.mp hrow).1
    simpa [locks, Write.keys, Db.id_of_program? hp] using hxw
  case holdProgram =>
    cases hx
    exact keys_version (fun row => { row with positionVerified := false }) (fun _ => rfl) ht

/-- A statement that takes nothing. -/
theorem taken_nil (hws : ws = []) (htakes : s.takes b = []) : locks.taken s b ws = [] := by
  simp [Locks.taken, locks, hws, htakes]

/-! ## Every transaction climbs -/

/-- A transaction that climbs in the order of the keys. -/
abbrev ClimbsKeys (held : List Key) (r : ℕ) (t : Transaction α) : Prop :=
  Climbs engine locks Key.rank Stmt.shelter held r t

variable {held : List Key} {r : ℕ} {k : β → Transaction α}

theorem Key.rank_program : (Key.program p).rank < 2 ^ 128 := p.isLt

theorem Stmt.shelter_under (hs : s.under = some p) : s.shelter = none := by
  cases s <;> simp only [Stmt.under, reduceCtorEq] at hs <;> rfl

/-- A statement under the lock of its program. -/
theorem climbs_under (hs : s.under = some p) (hp : .program p ∈ held)
    (hk : ∀ b held', held ⊆ held' → ClimbsKeys held' r (k b)) :
    ClimbsKeys held r (query s >>= k) :=
  .again (Stmt.shelter_under hs) (fun _ _ _ hx _ hx' => Stmt.taken_under hs hx hx' ▸ hp) hk

/-- A statement that only reads, and locks nothing. -/
theorem climbs_reads (hs : s.shelter = none) (hws : ∀ c b ws, s.exec c = .ok (b, ws) → ws = [])
    (htakes : ∀ b, s.takes b = []) (hk : ∀ b held', held ⊆ held' → ClimbsKeys held' r (k b)) :
    ClimbsKeys held r (query s >>= k) :=
  .again hs (fun c b ws hx x hx' => by
    simp [taken_nil (hws c b ws (Stmt.exec_of_send hx)) (htakes b)] at hx') hk

theorem climbs_orTypeError {e : Except TypeError β} (hk : ∀ b, ClimbsKeys held r (k b)) :
    ClimbsKeys held r (orTypeError e >>= k) := by
  cases e with
  | error _ => trivial
  | ok b => exact hk b

theorem climbs_persistAdvance {programId : String} {result : AdvanceResult} {now : Timestamp}
    {flag : Bool} {k : Unit → Transaction α} (hp : .program (Uuid.ofText programId) ∈ held)
    (hk : ∀ held', held ⊆ held' → ClimbsKeys held' r (k ())) :
    ClimbsKeys held r (persistAdvance programId result now flag >>= k) := by
  unfold persistAdvance
  split
  · exact climbs_under rfl hp fun _ held₁ h₁ => climbs_under rfl (h₁ hp) fun _ held₂ h₂ =>
      hk held₂ (List.Subset.trans h₁ h₂)
  · exact climbs_under rfl hp fun _ held₁ h₁ => hk held₁ h₁

/-- A request's record, once it is inserted. -/
theorem climbs_completeRequest {identity : RequestIdentity} {body : WriteBody}
    {k : Unit → Transaction α} (hr : .request identity.organisationId identity.requestId ∈ held)
    (hk : ∀ held', held ⊆ held' → ClimbsKeys held' r (k ())) :
    ClimbsKeys held r (completeRequest identity body >>= k) := by
  refine .again rfl (fun c b ws hx x hx' => ?_) fun _ held' h => hk held' h
  cases Stmt.exec_of_send hx
  cases hfound : c.request? identity.organisationId identity.requestId with
  | none => simp [Locks.taken, locks, Stmt.takes, Write.keys, hfound] at hx'
  | some row =>
    obtain ⟨ho, hid⟩ := Prod.mk.inj (Table.get_eq_some hfound).2
    have he : x = .request row.organisationId row.requestId := by
      simpa [Locks.taken, locks, Stmt.takes, Write.keys, hfound] using hx'
    rw [he, ho, hid]
    exact hr

/-- What a program's lock comes before. -/
theorem climbs_withProgramLock {programId : String} {fn : ProgramEntity → Transaction α}
    (h : ∀ program held, .program (Uuid.ofText programId) ∈ held →
      ClimbsKeys held (2 ^ 128) (fn program)) : ClimbsKeys [] 0 (withProgramLock programId fn) := by
  refine .next (2 ^ 128) rfl (Nat.zero_le _) (fun c b ws hx x hx' => ?_) fun c found ws hx => ?_
  · obtain rfl := Stmt.taken_under rfl hx hx'
    exact Or.inr ⟨Nat.zero_le _, Key.rank_program⟩
  · cases found with
    | none => trivial
    | some program =>
      exact h program _ (List.mem_append_right _ (List.mem_append_left _ List.mem_cons_self))

/-- What a request's record comes before. -/
theorem climbs_withIdempotency {identity : RequestIdentity} {now : Timestamp}
    {proceed : Transaction WriteOutcome}
    (h : ∀ held', held ⊆ held' → .request identity.organisationId identity.requestId ∈ held' →
      ClimbsKeys held' (2 ^ 128 + 1) proceed) :
    ClimbsKeys held (2 ^ 128) (withIdempotency identity now proceed) := by
  -- the record is inserted, or one is there and nothing is taken
  have hinsert : ∀ c inserted ws, Stmt.exec (.insertRequest identity.organisationId
      identity.requestId identity.operation identity.fingerprint now) c = .ok (inserted, ws) →
      inserted = false ∧ ws = [] ∨ ws.flatMap Write.keys =
        [.request identity.organisationId identity.requestId] := by
    intro c inserted ws hx
    simp only [Stmt.exec] at hx
    split at hx
    · cases hx
      exact Or.inl ⟨rfl, rfl⟩
    · obtain ⟨-, hx⟩ := guarded_ok.mp hx
      cases hx
      exact Or.inr rfl
  refine .next (2 ^ 128 + 1) rfl (by omega) (fun c b ws hx x hx' => ?_) fun c inserted ws hx => ?_
  · rcases hinsert c b ws (Stmt.exec_of_send hx) with ⟨-, rfl⟩ | hkeys
    · simp [Locks.taken, locks, Stmt.takes] at hx'
    · have he : x = .request identity.organisationId identity.requestId := by
        simpa [Locks.taken, locks, Stmt.takes, hkeys] using hx'
      exact Or.inr (by simp [he, Key.rank])
  · cases inserted with
    | true =>
      rcases hinsert c true ws (Stmt.exec_of_send hx) with ⟨hfalse, -⟩ | hkeys
      · cases hfalse
      · refine h _ (List.subset_append_left _ _) (List.mem_append_right _ ?_)
        simp [Locks.taken, locks, Stmt.takes, hkeys]
    | false =>
      refine climbs_reads rfl (fun c b ws hx => by cases hx; rfl) (fun _ => rfl) fun found _ _ => ?_
      cases found with
      | none => trivial
      | some row =>
        simp only [Tx.bind]
        cases hd : decideReplay identity row with
        | error _ => trivial
        | ok decision =>
          cases decision with
          | proceed => exact absurd hd decideReplay_ne_proceed
          | replay _ | refused _ => trivial

/-- The rows of a program's reservations, under the program's lock. -/
theorem climbs_sheltered (hs : s.sheltering = some p) (hp : .program p ∈ held)
    (hk : ∀ b held' r', held ⊆ held' → ClimbsKeys held' r' (k b)) :
    ClimbsKeys held r (query s >>= k) :=
  .sheltered (g := .program p) (by simp [Stmt.shelter, hs]) hp hk

section Services

variable [Sha256] {rt : Runtime} {coordinates : StreamCoordinates}

theorem climbs_reserve {command : ReserveCommand} : ClimbsKeys [] 0 (reserve rt command) := by
  refine climbs_withProgramLock fun program held hp =>
    climbs_withIdempotency fun held₁ h₁ hr => ?_
  replace hp := h₁ hp
  refine climbs_under rfl hp fun duplicate held₂ h₂ => ?_
  split
  · trivial
  refine climbs_orTypeError fun fx => climbs_orTypeError fun decision => ?_
  cases decision with
  | refused _ _ => trivial
  | accepted reservedMinor fx =>
    -- the new row's id ranks above all that is held
    refine .next (2 ^ 128 + 3) rfl (by omega) (fun c b ws hx x hx' => ?_) fun c b ws hx => ?_
    · obtain ⟨-, hx⟩ := guarded_ok.mp (Stmt.exec_of_send hx)
      cases hx
      have he : x = .program (Uuid.ofText command.programId) ∨ x = .reservation rt.generatedId := by
        simpa [Locks.taken, locks, Stmt.takes, Write.keys, Stmt.newReservation] using hx'
      rcases he with rfl | rfl
      · exact Or.inl (h₂ hp)
      · exact Or.inr (by simp [Key.rank])
    · refine climbs_persistAdvance (List.mem_append_left _ (h₂ hp)) fun held₃ h₃ => ?_
      exact climbs_completeRequest (h₃ (List.mem_append_left _ (h₂ hr))) fun _ _ => trivial

theorem climbs_release {command : ReleaseCommand} : ClimbsKeys [] 0 (release rt command) := by
  refine climbs_withProgramLock fun program held hp =>
    climbs_withIdempotency fun held₁ h₁ hr => ?_
  replace hp := h₁ hp
  unfold proceedRelease
  split
  · trivial
  refine climbs_sheltered rfl hp fun found held₂ r₂ h₂ => ?_
  cases found with
  | none => trivial
  | some row =>
    refine climbs_orTypeError fun scaledRate => climbs_orTypeError fun decision => ?_
    cases decision with
    | error _ => trivial
    | ok applied =>
      refine climbs_persistAdvance (h₂ hp) fun held₃ h₃ => ?_
      refine climbs_sheltered rfl (h₃ (h₂ hp)) fun _ held₄ r₄ h₄ => ?_
      exact climbs_completeRequest (h₄ (h₃ (h₂ hr))) fun _ _ => trivial

theorem climbs_cancel {command : CancelCommand} : ClimbsKeys [] 0 (cancel rt command) := by
  refine climbs_withProgramLock fun program held hp =>
    climbs_withIdempotency fun held₁ h₁ hr => ?_
  replace hp := h₁ hp
  unfold proceedCancel
  split
  · trivial
  refine climbs_sheltered rfl hp fun found held₂ r₂ h₂ => ?_
  cases found with
  | none => trivial
  | some row =>
    dsimp only
    split
    · trivial
    · refine climbs_persistAdvance (h₂ hp) fun held₃ h₃ => ?_
      refine climbs_sheltered rfl (h₃ (h₂ hp)) fun _ held₄ r₄ h₄ => ?_
      exact climbs_completeRequest (h₄ (h₃ (h₂ hr))) fun _ _ => trivial

omit [Sha256] in
/-- The row of a message, which ranks above the program. -/
theorem climbs_insertMessage (row : ProcessedMessageEntity)
    (hs : ∀ c b ws, engine.exec s c = .ok (b, ws) → ∀ x ∈ locks.taken s b ws,
      x = .program row.programId ∨ x = .message row.messageId) (hshelter : s.shelter = none)
    (hp : .program row.programId ∈ held)
    (hk : ∀ b held', held ⊆ held' → ClimbsKeys held' (2 ^ 128 + 1) (k b)) :
    ClimbsKeys held (2 ^ 128) (query s >>= k) := by
  refine .next (2 ^ 128 + 1) hshelter (by omega) (fun c b ws hx x hx' => ?_) fun c b ws _ =>
    hk b _ (List.subset_append_left _ _)
  rcases hs c b ws hx x hx' with rfl | rfl
  · exact Or.inl hp
  · exact Or.inr (by simp [Key.rank])

theorem climbs_eventTransaction {event : CapacityEvent} :
    ClimbsKeys [] 0 (eventTransaction rt event coordinates) := by
  refine climbs_withProgramLock fun program held hp => ?_
  unfold ApplyTreasuryEventService.applyLocked
  split
  · trivial
  refine climbs_under rfl hp fun existing held₁ h₁ => ?_
  split
  · split
    · trivial
    · split <;> trivial
  refine climbs_insertMessage (ApplyTreasuryEventService.messageRow rt event) ?_ rfl (h₁ hp)
    fun inserted held₂ h₂ => ?_
  · intro c b ws hx x hx'
    replace hx := Stmt.exec_of_send hx
    simp only [Stmt.exec, guarded_ok] at hx
    obtain ⟨-, hx⟩ := hx
    split at hx
    · cases hx
      simp [Locks.taken, locks, Stmt.takes] at hx'
    · cases hx
      simpa [Locks.taken, locks, Stmt.takes, Write.keys] using hx'
  replace hp := h₂ (h₁ hp)
  have happly : ∀ held₃, held₂ ⊆ held₃ → ClimbsKeys held₃ (2 ^ 128 + 1)
      (ApplyTreasuryEventService.applyEntry rt event coordinates program) := fun held₃ h₃ =>
    climbs_persistAdvance (h₃ hp) fun _ h₄ => climbs_under rfl (h₄ (h₃ hp)) fun _ _ h₅ =>
      climbs_under rfl (h₅ (h₄ (h₃ hp))) fun _ _ _ => trivial
  split
  swap
  · trivial
  unfold ApplyTreasuryEventService.applyRecorded
  split
  · exact happly held₂ (List.Subset.refl _)
  · refine climbs_under rfl hp fun rows held₃ h₃ => ?_
    split
    · exact happly held₃ h₃
    · exact climbs_sheltered rfl (h₃ hp) fun _ held₄ r₄ h₄ =>
        climbs_under rfl (h₄ (h₃ hp)) fun _ _ h₅ =>
          climbs_under rfl (h₅ (h₄ (h₃ hp))) fun _ _ _ => trivial

theorem climbs_snapshotTransaction {snapshot : ReconciliationSnapshot} :
    ClimbsKeys [] 0 (snapshotTransaction rt snapshot coordinates) := by
  unfold snapshotTransaction
  split
  · trivial
  refine climbs_withProgramLock fun program held hp => ?_
  unfold ApplySnapshotService.applyLocked
  split
  · trivial
  refine climbs_reads rfl (fun c b ws hx => by cases hx; rfl) (fun _ => rfl) fun seen held₁ h₁ => ?_
  replace hp := h₁ hp
  split
  · trivial
  refine climbs_under rfl hp fun existing held₂ h₂ => ?_
  replace hp := h₂ hp
  split
  · split
    · trivial
    · split <;> trivial
  split
  · trivial
  refine climbs_under rfl hp fun rows held₃ h₃ => ?_
  replace hp := h₃ hp
  split
  · trivial
  split
  · trivial
  refine climbs_insertMessage (ApplySnapshotService.messageRow rt snapshot) ?_ rfl hp
    fun _ held₄ h₄ => ?_
  · intro c b ws hx x hx'
    obtain ⟨-, hx⟩ := guarded_ok.mp (Stmt.exec_of_send hx)
    cases hx
    simpa [Locks.taken, locks, Stmt.takes, Write.keys] using hx'
  replace hp := h₄ hp
  refine climbs_persistAdvance hp fun held₅ h₅ => climbs_under rfl (h₅ hp) fun _ held₆ h₆ => ?_
  replace hp := h₆ (h₅ hp)
  -- the acknowledgement ranks above its message
  refine .next (2 ^ 128 + 2) rfl (by omega) (fun c b ws hx x hx' => ?_) fun c b ws _ => ?_
  · obtain ⟨-, hx⟩ := guarded_ok.mp (Stmt.exec_of_send hx)
    cases hx
    have he : x = .acknowledgement snapshot.messageId := by
      simpa [Locks.taken, locks, Stmt.takes, Write.keys,
        ApplySnapshotService.acknowledgementRow] using hx'
    exact Or.inr (by simp [he, Key.rank])
  · split
    · exact climbs_sheltered rfl (List.mem_append_left _ hp) fun _ held₇ r₇ h₇ =>
        climbs_under rfl (h₇ (List.mem_append_left _ hp)) fun _ _ _ => trivial
    · exact climbs_under rfl (List.mem_append_left _ hp) fun _ _ _ => trivial

theorem LockedTransaction.climbs (t : LockedTransaction) : ClimbsKeys [] 0 t.tx := by
  cases t with
  | reserve rt command => exact climbs_reserve.map
  | release rt command => exact climbs_release.map
  | cancel rt command => exact climbs_cancel.map
  | event rt message coordinates => exact climbs_eventTransaction.map
  | snapshot rt message coordinates => exact climbs_snapshotTransaction.map

omit [Sha256] in
/-- A statement of one program, alone. -/
theorem climbs_single (hs : s.under = some p) : ClimbsKeys [] 0 (query s) :=
  .next (2 ^ 128) (Stmt.shelter_under hs) (Nat.zero_le _)
    (fun _ _ _ hx _ hx' => Stmt.taken_under hs hx hx' ▸ Or.inr ⟨Nat.zero_le _, Key.rank_program⟩)
    fun _ _ _ _ => trivial

omit [Sha256] in
/-- **A seed climbs from program to program.** -/
theorem climbs_runSeed {now : Timestamp} {programs : List ProgramSeed}
    (hr : ∀ program ∈ programs, r ≤ (Uuid.ofText program.id).toNat)
    (hascending : programs.Pairwise fun a b => Uuid.ofText a.id < Uuid.ofText b.id) :
    ClimbsKeys held r (runSeed now programs) := by
  induction programs generalizing held r with
  | nil => trivial
  | cons program programs ih =>
    obtain ⟨hlater, hascending⟩ := List.pairwise_cons.mp hascending
    have hfirst := hr program List.mem_cons_self
    refine .next ((Uuid.ofText program.id).toNat + 1) rfl (by omega) (fun c b ws hx x hx' => ?_)
      fun c inserted ws hx => ?_
    · obtain rfl := Stmt.taken_under rfl hx hx'
      exact Or.inr ⟨hfirst, Nat.lt_succ_self _⟩
    -- those that follow rank above this one
    have hrest : ∀ held', ClimbsKeys held' ((Uuid.ofText program.id).toNat + 1)
        (runSeed now programs) := fun held' => ih (fun next hnext => hlater next hnext) hascending
    cases inserted with
    | false => exact hrest _
    | true =>
      have hp : .program (Uuid.ofText program.id) ∈ held ++ locks.taken
          (Stmt.insertProgram (Uuid.ofText program.id) program.organisationId program.currency now)
          true ws := by
        replace hx := Stmt.exec_of_send hx
        simp only [Stmt.exec] at hx
        split at hx
        · cases hx
        · obtain ⟨-, hx⟩ := guarded_ok.mp hx
          cases hx
          simp [Locks.taken, locks, Write.keys, Stmt.newProgram]
      refine climbs_under rfl hp fun found held' h => ?_
      cases found with
      | none => trivial
      | some entity => exact climbs_persistAdvance (h hp) fun held'' _ => hrest held''

/-- **Every transaction that locks programs climbs.** -/
theorem RowTransaction.climbs (t : RowTransaction) : ClimbsKeys [] 0 t.tx := by
  cases t with
  | locked t => exact t.climbs.map
  | hold p => exact (climbs_single rfl).map
  | flag p => exact (climbs_single rfl).map
  | seed now programs ascending =>
    exact (climbs_runSeed (fun _ _ => Nat.zero_le _) ascending).map

end Services

/-! ## Where a reservation's id is at home -/

/-- The program `p` has a reservation with the id. -/
def Db.Home (db : Db) (id p : Uuid) : Prop :=
  ∃ row ∈ db.reservations, row.id = id ∧ row.programId = p

/-- The write brings a row of the program `p` with the id. -/
def Write.Home (w : Write) (id p : Uuid) : Prop :=
  ∃ rows, w = .reservations rows ∧ ∃ row ∈ rows, row.id = id ∧ row.programId = p

variable {id q : Uuid} {w : Write}

theorem home_apply : (c.apply w).Home id p ↔ w.Home id p ∨ c.Home id p := by
  cases w with
  | reservations rows =>
    have h : ((Table.putAll InvoiceReservationEntity.key rows c.reservations).any
        fun row => row.id = id && row.programId = p) =
        ((rows.any fun row => row.id = id && row.programId = p) ||
          c.reservations.any fun row => row.id = id && row.programId = p) :=
      @Table.any_putAll _ _ _ InvoiceReservationEntity.key c.reservations
        (fun k => k.2.2 = id && k.1 = p) rows
    rw [Bool.eq_iff_iff] at h
    simpa [Db.Home, Write.Home, Db.apply] using h
  | _ => simp [Db.Home, Write.Home, Db.apply]

theorem home_applyAll :
    (engine.applyAll ws c).Home id p ↔ (∃ w ∈ ws, w.Home id p) ∨ c.Home id p := by
  induction ws generalizing c with
  | nil => simp
  | cons w ws ih =>
    rw [Engine.applyAll_cons, ih, engine_apply, home_apply]
    simp only [List.mem_cons, exists_eq_or_imp, or_left_comm, or_assoc]

/-- What brings a row locks its id and its program. -/
theorem Write.Home.keys (h : w.Home id p) : .reservation id ∈ w.keys ∧ .program p ∈ w.keys := by
  obtain ⟨rows, rfl, row, hrow, rfl, rfl⟩ := h
  exact ⟨List.mem_flatMap.mpr ⟨row, hrow, by simp⟩, List.mem_flatMap.mpr ⟨row, hrow, by simp⟩⟩

/-- A write of another table brings no reservation. -/
theorem not_home {w' : Write} (hw : w ∈ [w']) (h : w.Home id p)
    (hne : ∀ rows, w' ≠ .reservations rows) : False := by
  obtain ⟨rows, he, -⟩ := h
  exact hne rows ((List.mem_singleton.mp hw).symm.trans he)

/-- An update of a program's rows brings new versions of them. -/
theorem home_update {rows : List InvoiceReservationEntity}
    {f : InvoiceReservationEntity → InvoiceReservationEntity} {u : Unit}
    (hx : Stmt.updateReservations rows f = .ok (u, ws)) (hw : w ∈ ws) (h : w.Home id p)
    (hrows : ∀ r ∈ rows, r ∈ c.reservationsOf q) (hid : ∀ r, (f r).id = r.id)
    (hprogram : ∀ r, (f r).programId = r.programId) : q = p ∧ c.Home id p := by
  obtain ⟨-, hx⟩ := guarded_ok.mp hx
  cases hx
  obtain rfl := List.mem_singleton.mp hw
  obtain ⟨rows', he, row, hrow, rfl, rfl⟩ := h
  cases he
  obtain ⟨old, hold, rfl⟩ := List.mem_map.mp hrow
  obtain ⟨hmem, hq⟩ := Db.mem_reservationsOf.mp (hrows old hold)
  exact ⟨by rw [hprogram, hq], old, hmem, (hid old).symm, (hprogram old).symm⟩

/-- **A statement brings new versions of its program's rows, or one row with
an id that is nowhere.** -/
theorem Stmt.home_written (hx : engine.exec s c = .ok (b, ws)) (hw : w ∈ ws) (h : w.Home id p) :
    s.sheltering = some p ∧ c.Home id p ∨
      s.sheltering = none ∧ (∀ q, ¬ c.Home id q) ∧ ∀ w' ∈ ws, ∀ q, w'.Home id q → q = p := by
  have htaken : .reservation id ∈ locks.taken s b ws := Locks.keys_subset_taken hw h.keys.1
  -- a statement under a program's lock takes that lock only
  by_cases hunder : ∃ q, s.under = some q
  · obtain ⟨q, hq⟩ := hunder
    cases Stmt.taken_under hq hx htaken
  replace hx := Stmt.exec_of_send hx
  cases s with
  | insertReservation =>
    obtain ⟨hchecks, hx⟩ := guarded_ok.mp hx
    cases hx
    simp only [List.forall_mem_append, List.forall_mem_cons, Constraint.unique] at hchecks
    obtain ⟨-, hnew, -⟩ := hchecks
    obtain rfl := List.mem_singleton.mp hw
    obtain ⟨rows, he, row, hrow, rfl, rfl⟩ := h
    cases he
    obtain rfl := List.mem_singleton.mp hrow
    refine Or.inr ⟨rfl, ?_, fun w' hw' q hq => ?_⟩
    · rintro q ⟨row, hrow, hid, -⟩
      simp only [Db.hasReservationId, Bool.not_eq_true', List.any_eq_false,
        decide_eq_true_eq] at hnew
      exact hnew row hrow hid
    · obtain rfl := List.mem_singleton.mp hw'
      obtain ⟨rows', he', row', hrow', -, rfl⟩ := hq
      cases he'
      rw [List.mem_singleton.mp hrow']
  | releaseReservation q =>
    obtain ⟨rfl, hhome⟩ := home_update hx hw h
      (fun r hr => (Db.mem_reservationsFor.mp hr).1) (fun _ => rfl) fun _ => rfl
    exact Or.inl ⟨rfl, hhome⟩
  | cancelReservation q =>
    obtain ⟨rfl, hhome⟩ := home_update hx hw h
      (fun r hr => (Db.mem_reservationsFor.mp hr).1) (fun _ => rfl) fun _ => rfl
    exact Or.inl ⟨rfl, hhome⟩
  | acknowledgeEcho q =>
    obtain ⟨rfl, hhome⟩ := home_update hx hw h
      (fun r hr => List.mem_of_mem_filter hr) (fun _ => rfl) fun _ => rfl
    exact Or.inl ⟨rfl, hhome⟩
  | acknowledgeReservations q =>
    obtain ⟨rfl, hhome⟩ := home_update hx hw h
      (fun r hr => List.mem_of_mem_filter hr) (fun _ => rfl) fun _ => rfl
    exact Or.inl ⟨rfl, hhome⟩
  | selectRequest | selectMessage | selectReconciliation | selectRecovery | lockReservation =>
    cases hx
    cases hw
  | insertRequest =>
    simp only [Stmt.exec] at hx
    split at hx
    · cases hx
      cases hw
    · obtain ⟨-, hx⟩ := guarded_ok.mp hx
      cases hx
      exact (not_home hw h (by simp)).elim
  | insertEventMessage =>
    obtain ⟨-, hx⟩ := guarded_ok.mp hx
    split at hx
    · cases hx
      cases hw
    · cases hx
      exact (not_home hw h (by simp)).elim
  | completeRequest | expireRequests =>
    cases hx
    exact (not_home hw h (by simp)).elim
  | insertSnapshotMessage | insertAcknowledgement =>
    obtain ⟨-, hx⟩ := guarded_ok.mp hx
    cases hx
    exact (not_home hw h (by simp)).elim
  | _ => exact absurd ⟨_, rfl⟩ hunder

/-- **Who locks a reservation's id has its program**: it locks a row that is
there, under the lock of its program, or it brings the row. -/
theorem Stmt.home_taken (hx : engine.exec s c = .ok (b, ws))
    (ht : .reservation id ∈ locks.taken s b ws) :
    (∃ p, s.sheltering = some p ∧ c.Home id p) ∨
      s.sheltering = none ∧ ∃ p, (∃ w ∈ ws, w.Home id p) ∧ .program p ∈ locks.taken s b ws := by
  have hwritten : (∃ w ∈ ws, .reservation id ∈ w.keys) → ∃ p, ∃ w ∈ ws, w.Home id p := by
    rintro ⟨w, hw, hkey⟩
    cases w with
    | reservations rows =>
      obtain ⟨row, hrow, hid⟩ := List.mem_flatMap.mp hkey
      have hid : id = row.id := by simpa using hid
      exact ⟨row.programId, _, hw, rows, rfl, row, hrow, hid.symm, rfl⟩
    | _ => simp [Write.keys] at hkey
  rcases List.mem_append.mp ht with hlock | hkeys
  · cases s with
    | lockReservation p invoiceId =>
      cases Stmt.exec_of_send hx
      have hlock : .reservation id ∈ Stmt.takes (.lockReservation p invoiceId)
        (c.reservationsFor p invoiceId).head? := hlock
      rw [takes_lockReservation] at hlock
      obtain ⟨row, hrow, hid⟩ := List.mem_map.mp hlock
      obtain ⟨hmem, hp⟩ := Db.mem_reservationsOf.mp
        (Db.mem_reservationsFor.mp (List.mem_of_mem_head? (Option.mem_toList.mp hrow))).1
      exact Or.inl ⟨p, rfl, row, hmem, Key.reservation.inj hid, hp⟩
    | lockProgram p =>
      simp [locks, takes_lockProgram] at hlock
    | _ => simp [locks, Stmt.takes] at hlock
  · obtain ⟨p, w, hw, hhome⟩ := hwritten (List.mem_flatMap.mp hkeys)
    rcases Stmt.home_written hx hw hhome with ⟨hs, hc⟩ | ⟨hs, -⟩
    · exact Or.inl ⟨p, hs, hc⟩
    · exact Or.inr ⟨hs, p, ⟨w, hw, hhome⟩, Locks.keys_subset_taken hw hhome.keys.2⟩

/-- A sheltered statement takes its program's key, and ids that are at home
in the program. -/
theorem Stmt.taken_sheltered (hs : s.sheltering = some p) (hx : engine.exec s c = .ok (b, ws))
    (ht : x ∈ locks.taken s b ws) : x = .program p ∨ ∃ id, x = .reservation id ∧ c.Home id p := by
  have hrows : ∀ w ∈ ws, ∃ rows, w = .reservations rows := by
    intro w hw
    cases s <;> simp only [Stmt.sheltering, reduceCtorEq] at hs
    case lockReservation =>
      cases Stmt.exec_of_send hx
      cases hw
    all_goals
      obtain ⟨-, hx⟩ := guarded_ok.mp (Stmt.exec_of_send hx)
      cases hx
      exact ⟨_, List.mem_singleton.mp hw⟩
  have hid : ∀ id, .reservation id ∈ locks.taken s b ws → c.Home id p := by
    intro id hid
    rcases Stmt.home_taken hx hid with ⟨q, hq, hhome⟩ | ⟨hnone, -⟩
    · exact Option.some.inj (hs.symm.trans hq) ▸ hhome
    · cases hs.symm.trans hnone
  rcases List.mem_append.mp ht with hlock | hkeys
  · cases s <;> simp only [Stmt.sheltering, reduceCtorEq] at hs
    case lockReservation q invoiceId =>
      have hlock' : x ∈ Stmt.takes (.lockReservation q invoiceId) b := hlock
      rw [takes_lockReservation] at hlock'
      obtain ⟨row, -, rfl⟩ := List.mem_map.mp hlock'
      exact Or.inr ⟨row.id, rfl, hid row.id ht⟩
    all_goals simp [locks, Stmt.takes] at hlock
  · obtain ⟨w, hw, hxw⟩ := List.mem_flatMap.mp hkeys
    obtain ⟨rows, rfl⟩ := hrows w hw
    obtain ⟨row, hrow, hxrow⟩ := List.mem_flatMap.mp hxw
    have hhome : (Write.reservations rows).Home row.id row.programId :=
      ⟨rows, rfl, row, hrow, rfl, rfl⟩
    rcases List.mem_cons.mp hxrow with rfl | hxrow
    · rcases Stmt.home_written hx hw hhome with ⟨hq, -⟩ | ⟨hnone, -⟩
      · exact Or.inl (congrArg Key.program (Option.some.inj (hq.symm.trans hs)))
      · cases hs.symm.trans hnone
    · obtain rfl := List.mem_singleton.mp hxrow
      exact Or.inr ⟨row.id, rfl, hid row.id ht⟩

end InvoiceReservation
