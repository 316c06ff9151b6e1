import InvoiceReservation.Common.Machine
import Mathlib.Data.List.Basic
/-!
# A partition and its consumers

A log that only grows, the offset a consumer group has committed for it,
and the calls that process its messages. A consumer that joins starts at
the committed offset, or at the end of the log where the group has none.
What a call does to a message is a list of effects, done one at a time, so
that a crash can fall between any two; a consumer that has lost the
partition may still be in a call of its own.

A partition is `Disciplined` from an offset on where nothing has been left
behind unsettled: every step keeps it, but a join at the end of the log
only where nothing there is unsettled (`Disciplined.step`).
-/

namespace Partitions

open Machines

variable {μ ε γ : Type}

/-- A call about the message at an offset: what it has still to do, and
whether it resolves after that, or rejects. -/
structure Call (ε : Type) where
  offset : Nat
  rest : List ε
  resolves : Bool

/-- A partition. `position` is where the consumer that has it goes on, and
`done` the effects so far, each with its message's offset. -/
structure Partition (μ ε : Type) where
  log : List μ
  committed : Option Nat
  position : Option Nat
  calls : List (Call ε)
  done : List (Nat × ε)

/-- What can happen to a partition. -/
inductive Event (μ γ : Type)
  | append (message : μ)
  | join
  | leave
  | deliver (answers : γ)
  | perform (call : Nat)
  | finish (call : Nat)
  | abandon (call : Nat)

variable (commits : ε → Option Nat) (process : Nat → μ → γ → List ε × Bool)

/-- Where a joining consumer starts. -/
def Partition.resume (s : Partition μ ε) : Nat := s.committed.getD s.log.length

/-- One step. A call that resolves moves its consumer on, and one that
rejects leaves it where it is. -/
def step : Event μ γ → Partition μ ε → Option (Partition μ ε)
  | .append message, s => some { s with log := s.log ++ [message] }
  | .join, s => some { s with position := some s.resume }
  | .leave, s => some { s with position := none }
  | .deliver answers, s =>
    match s.position with
    | none => none
    | some offset =>
      match s.log[offset]? with
      | none => none
      | some message =>
        let call := process offset message answers
        some { s with calls := s.calls ++ [⟨offset, call.1, call.2⟩] }
  | .perform i, s =>
    match s.calls[i]? with
    | some ⟨offset, effect :: rest, resolves⟩ =>
      some { s with
        calls := s.calls.set i ⟨offset, rest, resolves⟩
        done := s.done ++ [(offset, effect)]
        committed := (commits effect).or s.committed }
    | _ => none
  | .finish i, s =>
    match s.calls[i]? with
    | some ⟨offset, [], resolves⟩ =>
      some { s with
        calls := s.calls.eraseIdx i
        position := if resolves ∧ s.position = some offset then some (offset + 1) else s.position }
    | _ => none
  | .abandon i, s => some { s with calls := s.calls.eraseIdx i }

/-! ## What is settled -/

variable (settles : Nat → μ → ε → Prop)

/-- A message one of the effects has settled. -/
def Settled (s : Partition μ ε) (offset : Nat) : Prop :=
  ∃ message effect, s.log[offset]? = some message ∧ (offset, effect) ∈ s.done ∧
    settles offset message effect

/-- Every message from one offset up to another is settled. -/
def SettledFrom (base : Nat) (s : Partition μ ε) (upTo : Nat) : Prop :=
  ∀ offset, base ≤ offset → offset < upTo → Settled settles s offset

/-- Effects that commit the offset after their message's alone, and only
behind one that settles it, and resolve only with one. -/
structure Settling (offset : Nat) (message : μ) (effects : List ε) (resolves : Bool)
    (already : Prop) : Prop where
  commits : ∀ before effect after next, effects = before ++ effect :: after →
    commits effect = some next → next = offset + 1 ∧
      (already ∨ ∃ e ∈ before, settles offset message e)
  resolves : resolves = true → already ∨ ∃ e ∈ effects, settles offset message e

/-- Processing that settles a message before it goes on to the next. -/
def Proper : Prop :=
  ∀ offset message answers, Settling commits settles offset message
    (process offset message answers).1 (process offset message answers).2 False

/-- **Nothing from the base on has been left behind unsettled.** -/
structure Disciplined (base : Nat) (s : Partition μ ε) : Prop where
  committed : ∀ next, s.committed = some next → SettledFrom settles base s next
  position : ∀ next, s.position = some next → SettledFrom settles base s next
  calls : ∀ call ∈ s.calls, SettledFrom settles base s call.offset ∧
    ∃ message, s.log[call.offset]? = some message ∧
      Settling commits settles call.offset message call.rest call.resolves
        (Settled settles s call.offset)

/-- A join that leaves nothing behind: the group has committed an offset, or
there is nothing unsettled below the end of the log. -/
def JoinsSafely (base : Nat) (s : Partition μ ε) : Prop :=
  s.committed = none → SettledFrom settles base s s.log.length

variable {commits process settles} {s s' : Partition μ ε} {base offset upTo : Nat}
variable {effect : ε} {effects : List ε} {resolves : Bool} {already : Prop}

/-- The log and the effects only grow. -/
structure Grows (s s' : Partition μ ε) : Prop where
  log : s.log <+: s'.log
  done : s.done <+: s'.done

theorem Grows.getElem? {m : μ} (h : Grows s s') (hm : s.log[offset]? = some m) :
    s'.log[offset]? = some m := by
  obtain ⟨hlt, rfl⟩ := List.getElem?_eq_some_iff.mp hm
  exact List.prefix_iff_getElem?.mp h.log offset hlt

theorem Grows.settled (h : Grows s s') (hs : Settled settles s offset) :
    Settled settles s' offset := by
  obtain ⟨message, effect, hlog, hdone, hsettles⟩ := hs
  exact ⟨message, effect, h.getElem? hlog, h.done.subset hdone, hsettles⟩

theorem Grows.settledFrom (h : Grows s s') (hs : SettledFrom settles base s upTo) :
    SettledFrom settles base s' upTo :=
  fun offset hbase hlt => h.settled (hs offset hbase hlt)

/-- One more message is settled. -/
theorem SettledFrom.succ (h : SettledFrom settles base s offset)
    (hs : Settled settles s offset) : SettledFrom settles base s (offset + 1) := by
  intro o hbase hlt
  rcases Nat.lt_succ_iff_lt_or_eq.mp hlt with hlt | rfl
  · exact h o hbase hlt
  · exact hs

theorem Settling.mono {message : μ} {already' : Prop}
    (h : Settling commits settles offset message effects resolves already)
    (himp : already → already') :
    Settling commits settles offset message effects resolves already' where
  commits before effect after next heq hnext :=
    let ⟨hoffset, hor⟩ := h.commits before effect after next heq hnext
    ⟨hoffset, hor.imp_left himp⟩
  resolves hresolves := (h.resolves hresolves).imp_left himp

/-- What is left of the effects after the first of them. -/
theorem Settling.tail {message : μ} {already' : Prop}
    (h : Settling commits settles offset message (effect :: effects) resolves already)
    (himp : already → already') (hsettles : settles offset message effect → already') :
    Settling commits settles offset message effects resolves already' where
  commits before e after next heq hnext := by
    obtain ⟨hoffset, hor⟩ := h.commits (effect :: before) e after next (by rw [heq]; rfl) hnext
    refine ⟨hoffset, ?_⟩
    rcases hor with halready | ⟨e', he', hsettled⟩
    · exact Or.inl (himp halready)
    · rcases List.mem_cons.mp he' with rfl | he'
      · exact Or.inl (hsettles hsettled)
      · exact Or.inr ⟨e', he', hsettled⟩
  resolves hresolves := by
    rcases h.resolves hresolves with halready | ⟨e', he', hsettled⟩
    · exact Or.inl (himp halready)
    · rcases List.mem_cons.mp he' with rfl | he'
      · exact Or.inl (hsettles hsettled)
      · exact Or.inr ⟨e', he', hsettled⟩

/-- A commit that comes next comes after the message has been settled. -/
theorem Settling.head {message : μ} {next : Nat}
    (h : Settling commits settles offset message (effect :: effects) resolves already)
    (hnext : commits effect = some next) : next = offset + 1 ∧ already := by
  obtain ⟨hoffset, hor⟩ := h.commits [] effect effects next rfl hnext
  refine ⟨hoffset, ?_⟩
  rcases hor with halready | ⟨e, he, -⟩
  · exact halready
  · cases he

/-! ## What a step keeps -/

/-- What it is for the calls of a partition to be in order. -/
theorem Disciplined.call (h : Disciplined commits settles base s) {call : Call ε}
    (hcall : call ∈ s.calls) (hgrows : Grows s s') :
    SettledFrom settles base s' call.offset ∧ ∃ message, s'.log[call.offset]? = some message ∧
      Settling commits settles call.offset message call.rest call.resolves
        (Settled settles s' call.offset) := by
  obtain ⟨hfrom, message, hmessage, hsettling⟩ := h.calls call hcall
  exact ⟨hgrows.settledFrom hfrom, message, hgrows.getElem? hmessage,
    hsettling.mono hgrows.settled⟩

theorem Disciplined.append (h : Disciplined commits settles base s) (message : μ) :
    Disciplined commits settles base { s with log := s.log ++ [message] } := by
  have hgrows : Grows s { s with log := s.log ++ [message] } :=
    ⟨List.prefix_append .., List.prefix_rfl⟩
  exact ⟨fun next hnext => hgrows.settledFrom (h.committed next hnext),
    fun next hnext => hgrows.settledFrom (h.position next hnext),
    fun call hcall => h.call hcall hgrows⟩

theorem Disciplined.join (h : Disciplined commits settles base s)
    (hsafe : JoinsSafely settles base s) :
    Disciplined commits settles base { s with position := some s.resume } := by
  refine ⟨h.committed, fun next hnext => ?_, h.calls⟩
  cases hnext
  cases hcommitted : s.committed with
  | some next =>
    have hresume : s.resume = next := by rw [Partition.resume, hcommitted]; rfl
    rw [hresume]
    exact h.committed next hcommitted
  | none =>
    -- no offset is committed, so the consumer goes on at the end of the log
    have hresume : s.resume = s.log.length := by rw [Partition.resume, hcommitted]; rfl
    rw [hresume]
    exact hsafe hcommitted

theorem Disciplined.leave (h : Disciplined commits settles base s) :
    Disciplined commits settles base { s with position := none } :=
  ⟨h.committed, fun _ hnext => (nomatch hnext), h.calls⟩

theorem Disciplined.deliver (h : Disciplined commits settles base s)
    (hproper : Proper commits process settles) (hposition : s.position = some offset)
    {message : μ} (hmessage : s.log[offset]? = some message) (answers : γ) :
    Disciplined commits settles base { s with
      calls := s.calls ++ [⟨offset, (process offset message answers).1,
        (process offset message answers).2⟩] } := by
  refine ⟨h.committed, h.position, fun call hcall => ?_⟩
  rcases List.mem_append.mp hcall with hcall | hcall
  · exact h.calls call hcall
  · cases List.mem_singleton.mp hcall
    exact ⟨h.position offset hposition, message, hmessage,
      (hproper offset message answers).mono False.elim⟩

theorem Disciplined.perform (h : Disciplined commits settles base s) {i : Nat}
    (hi : s.calls[i]? = some ⟨offset, effect :: effects, resolves⟩) :
    Disciplined commits settles base { s with
      calls := s.calls.set i ⟨offset, effects, resolves⟩
      done := s.done ++ [(offset, effect)]
      committed := (commits effect).or s.committed } := by
  have hgrows : Grows s { s with
      calls := s.calls.set i ⟨offset, effects, resolves⟩
      done := s.done ++ [(offset, effect)]
      committed := (commits effect).or s.committed } :=
    ⟨List.prefix_rfl, List.prefix_append ..⟩
  obtain ⟨hfrom, message, hmessage, hsettling⟩ := h.calls _ (List.mem_of_getElem? hi)
  refine ⟨fun next hnext => ?_, fun next hnext => hgrows.settledFrom (h.position next hnext),
    fun call hcall => ?_⟩
  · cases hcommits : commits effect with
    | none =>
      rw [hcommits] at hnext
      exact hgrows.settledFrom (h.committed next hnext)
    | some next' =>
      rw [hcommits] at hnext
      cases hnext
      obtain ⟨rfl, hsettled⟩ := hsettling.head hcommits
      exact hgrows.settledFrom (hfrom.succ hsettled)
  · rcases List.mem_or_eq_of_mem_set hcall with hcall | rfl
    · exact h.call hcall hgrows
    · exact ⟨hgrows.settledFrom hfrom, message, hmessage, hsettling.tail hgrows.settled
        fun hsettles => ⟨message, effect, hmessage,
          List.mem_append_right _ (List.mem_singleton.mpr rfl), hsettles⟩⟩

theorem Disciplined.finish (h : Disciplined commits settles base s) {i : Nat}
    (hi : s.calls[i]? = some ⟨offset, [], resolves⟩) :
    Disciplined commits settles base { s with
      calls := s.calls.eraseIdx i
      position := if resolves ∧ s.position = some offset then some (offset + 1)
        else s.position } := by
  obtain ⟨hfrom, message, -, hsettling⟩ := h.calls _ (List.mem_of_getElem? hi)
  refine ⟨h.committed, fun next hnext => ?_, fun call hcall =>
    h.calls call (List.mem_of_mem_eraseIdx hcall)⟩
  dsimp only at hnext
  split at hnext
  · rename_i hmoves
    cases hnext
    rcases hsettling.resolves hmoves.1 with hsettled | ⟨e, he, -⟩
    · exact hfrom.succ hsettled
    · cases he
  · exact h.position next hnext

theorem Disciplined.abandon (h : Disciplined commits settles base s) (i : Nat) :
    Disciplined commits settles base { s with calls := s.calls.eraseIdx i } :=
  ⟨h.committed, h.position, fun call hcall => h.calls call (List.mem_of_mem_eraseIdx hcall)⟩

/-- **The step lemma.** -/
theorem Disciplined.step (h : Disciplined commits settles base s)
    (hproper : Proper commits process settles) {event : Event μ γ}
    (hsafe : event = .join → JoinsSafely settles base s)
    (hs : step commits process event s = some s') : Disciplined commits settles base s' := by
  cases event with
  | append message =>
    cases hs
    exact h.append message
  | join =>
    cases hs
    exact h.join (hsafe rfl)
  | leave =>
    cases hs
    exact h.leave
  | deliver answers =>
    simp only [Partitions.step] at hs
    split at hs
    · cases hs
    · rename_i offset hposition
      split at hs
      · cases hs
      · rename_i message hmessage
        cases hs
        exact h.deliver hproper hposition hmessage answers
  | perform i =>
    simp only [Partitions.step] at hs
    split at hs
    · rename_i offset effect rest resolves hi
      cases hs
      exact h.perform hi
    · cases hs
  | finish i =>
    simp only [Partitions.step] at hs
    split at hs
    · rename_i offset resolves hi
      cases hs
      exact h.finish hi
    · cases hs
  | abandon i =>
    cases hs
    exact h.abandon i

/-- A committed offset can be replaced and is never lost. -/
theorem committed_isSome_step {event : Event μ γ} (h : s.committed.isSome)
    (hs : step commits process event s = some s') : s'.committed.isSome := by
  cases event with
  | perform i =>
    simp only [step] at hs
    split at hs
    · rename_i offset effect rest resolves hi
      cases hs
      simp [h]
    · cases hs
  | append message => cases hs; exact h
  | join => cases hs; exact h
  | leave => cases hs; exact h
  | abandon i => cases hs; exact h
  | deliver answers =>
    simp only [step] at hs
    split at hs
    · cases hs
    · split at hs
      · cases hs
      · cases hs
        exact h
  | finish i =>
    simp only [step] at hs
    split at hs
    · cases hs
      exact h
    · cases hs

/-- A log only grows. -/
theorem log_step {event : Event μ γ} (hs : step commits process event s = some s') :
    s.log <+: s'.log := by
  cases event with
  | append message => cases hs; exact List.prefix_append ..
  | join => cases hs; exact List.prefix_rfl
  | leave => cases hs; exact List.prefix_rfl
  | abandon i => cases hs; exact List.prefix_rfl
  | deliver answers =>
    simp only [step] at hs
    split at hs
    · cases hs
    · split at hs
      · cases hs
      · cases hs
        exact List.prefix_rfl
  | perform i =>
    simp only [step] at hs
    split at hs
    · cases hs
      exact List.prefix_rfl
    · cases hs
  | finish i =>
    simp only [step] at hs
    split at hs
    · cases hs
      exact List.prefix_rfl
    · cases hs

/-- **What is done** is what the calls do, one effect at a time. -/
theorem done_step {event : Event μ γ} (hs : step commits process event s = some s') :
    s'.done = s.done ∨ ∃ i offset effect rest resolves, event = .perform i ∧
      s.calls[i]? = some ⟨offset, effect :: rest, resolves⟩ ∧
      s'.done = s.done ++ [(offset, effect)] := by
  cases event with
  | append message => cases hs; exact Or.inl rfl
  | join => cases hs; exact Or.inl rfl
  | leave => cases hs; exact Or.inl rfl
  | abandon i => cases hs; exact Or.inl rfl
  | deliver answers =>
    simp only [step] at hs
    split at hs
    · cases hs
    · split at hs
      · cases hs
      · cases hs
        exact Or.inl rfl
  | perform i =>
    simp only [step] at hs
    split at hs
    · rename_i offset effect rest resolves hi
      cases hs
      exact Or.inr ⟨i, offset, effect, rest, resolves, rfl, hi, rfl⟩
    · cases hs
  | finish i =>
    simp only [step] at hs
    split at hs
    · cases hs
      exact Or.inl rfl
    · cases hs

/-! ## The partitions of a group -/

section Group

variable {κ : Type} [DecidableEq κ] (commits : ε → Option Nat)
variable (process : κ → Nat → μ → γ → List ε × Bool) (settles : κ → Nat → μ → ε → Prop)

/-- The partitions a consumer group reads. A step is one partition's, and a
crash, a rebuild or a rebalance of the group is a step of each it concerns. -/
def group (start : (κ → Partition μ ε) → Prop) : Machine (κ → Partition μ ε) (κ × Event μ γ) where
  start := start
  step event g := (step commits (process event.1) event.2 (g event.1)).map
    (Function.update g event.1)

/-- A partition whose group has committed an offset, and no more. -/
def CommittedAt (base : Nat) (s : Partition μ ε) : Prop :=
  s.committed = some base ∧ s.position = none ∧ s.calls = [] ∧ s.done = []

/-- A partition its group has just subscribed to for the first time. -/
def FirstJoined (base : Nat) (s : Partition μ ε) : Prop :=
  s.committed = none ∧ s.position = some base ∧ s.log.length = base ∧ s.calls = [] ∧ s.done = []

/-- **No consumer of the group is beyond a message that is not settled.** -/
def NothingSkipped (base : κ → Nat) (g : κ → Partition μ ε) : Prop :=
  ∀ k next, (g k).position = some next → SettledFrom (settles k) (base k) (g k) next

variable {commits process settles} {base : κ → Nat} {g g' : κ → Partition μ ε}
variable {start : (κ → Partition μ ε) → Prop} {event : κ × Event μ γ}
variable {events : List (κ × Event μ γ)}

theorem settledFrom_self {settles : Nat → μ → ε → Prop} {s : Partition μ ε} {base : Nat} :
    SettledFrom settles base s base := by
  intro offset hbase hlt
  omega

theorem CommittedAt.disciplined {settles : Nat → μ → ε → Prop} {s : Partition μ ε} {base : Nat}
    (h : CommittedAt base s) : Disciplined commits settles base s := by
  obtain ⟨hcommitted, hposition, hcalls, -⟩ := h
  refine ⟨fun next hnext => ?_, fun next hnext => ?_, fun call hcall => ?_⟩
  · rw [hcommitted] at hnext
    cases hnext
    exact settledFrom_self
  · rw [hposition] at hnext
    cases hnext
  · rw [hcalls] at hcall
    cases hcall

theorem FirstJoined.disciplined {settles : Nat → μ → ε → Prop} {s : Partition μ ε} {base : Nat}
    (h : FirstJoined base s) : Disciplined commits settles base s := by
  obtain ⟨hcommitted, hposition, -, hcalls, -⟩ := h
  refine ⟨fun next hnext => ?_, fun next hnext => ?_, fun call hcall => ?_⟩
  · rw [hcommitted] at hnext
    cases hnext
  · rw [hposition] at hnext
    cases hnext
    exact settledFrom_self
  · rw [hcalls] at hcall
    cases hcall

theorem group_step_eq_some (hs : (group commits process start).step event g = some g') :
    ∃ s', step commits (process event.1) event.2 (g event.1) = some s' ∧
      g' = Function.update g event.1 s' := by
  obtain ⟨s', hstep, rfl⟩ := Option.map_eq_some_iff.mp hs
  exact ⟨s', hstep, rfl⟩

/-- What a step keeps of its own partition is kept of all of them. -/
theorem group_step {P : κ → Partition μ ε → Prop} (h : ∀ k, P k (g k))
    (hstep : ∀ s', step commits (process event.1) event.2 (g event.1) = some s' → P event.1 s')
    (hs : (group commits process start).step event g = some g') (k : κ) : P k (g' k) := by
  obtain ⟨s', hs', rfl⟩ := group_step_eq_some hs
  by_cases hk : k = event.1
  · subst hk
    rw [Function.update_self]
    exact hstep s' hs'
  · rw [Function.update_of_ne hk]
    exact h k

/-- **Committed offsets.** Where the group has committed an offset of every
partition, no later join leaves anything behind. -/
theorem disciplined_of_reached (hproper : ∀ k, Proper commits (process k) (settles k))
    (h : (group commits process fun g => ∀ k, CommittedAt (base k) (g k)).Reached g) :
    ∀ k, Disciplined commits (settles k) (base k) (g k) ∧ (g k).committed.isSome := by
  refine h.induct (P := fun g => ∀ k, Disciplined commits (settles k) (base k) (g k) ∧
    (g k).committed.isSome) (fun g hstart k => ?_) fun g g' event ih hs => ?_
  · exact ⟨(hstart k).disciplined, by rw [(hstart k).1]; rfl⟩
  · refine group_step (P := fun k s => Disciplined commits (settles k) (base k) s ∧
      s.committed.isSome) ih (fun s' hs' => ?_) hs
    obtain ⟨hdisciplined, hcommitted⟩ := ih event.1
    refine ⟨hdisciplined.step (hproper event.1) (fun _ hnone => ?_) hs',
      committed_isSome_step hcommitted hs'⟩
    rw [hnone] at hcommitted
    cases hcommitted

/-- **Joins.** Along a run, no consumer is ever beyond an unsettled message
just where no join leaves one behind. -/
theorem nothingSkipped_iff (hproper : ∀ k, Proper commits (process k) (settles k))
    (h : ∀ k, Disciplined commits (settles k) (base k) (g k))
    (hr : (group commits process start).run events g = some g') :
    (∀ t, (group commits process start).Visits events g t → NothingSkipped settles base t) ↔
      ∀ k t, (group commits process start).Takes events g (k, .join) t →
        JoinsSafely (settles k) (base k) (t k) := by
  constructor
  · intro hskipped k t htakes hcommitted
    obtain ⟨t', hstep, hvisits⟩ := htakes.step hr
    obtain ⟨s', hjoin, rfl⟩ := group_step_eq_some hstep
    cases hjoin
    have hfrom := hskipped _ hvisits k _ (by rw [Function.update_self])
    rw [Function.update_self, Partition.resume, hcommitted] at hfrom
    exact hfrom
  · intro hjoins t hvisits
    have hdisciplined : ∀ k, Disciplined commits (settles k) (base k) (t k) := by
      refine hvisits.induct (P := fun t => ∀ k, Disciplined commits (settles k) (base k) (t k)) h
        fun event t t' htakes ih hs => ?_
      refine group_step ih (fun s' hs' => (ih event.1).step (hproper event.1) ?_ hs') hs
      intro hjoin
      refine hjoins event.1 t ?_
      rw [← hjoin]
      exact htakes
    exact fun k next hnext => (hdisciplined k).position next hnext

end Group

end Partitions
