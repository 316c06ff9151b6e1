import InvoiceReservation.Model.TreasuryConsumer
/-!
# Committed offsets

A call commits the offset of its message only behind what has settled the
message: `Course` lists how a call can go, whatever its handlers, the dead
letter topic and the broker answer. So in every run of the consumer group,
with crashes between any two effects and deliveries that go on at the
committed offset, what is below a committed offset is settled.
-/

namespace InvoiceReservation

open Partitions Retries

namespace TreasuryConsumer

/-! ## Retried calls -/

/-- Calls all of which failed. -/
def Failing {α : Type} (calls : List (Except Thrown α)) : Prop :=
  ∀ call ∈ calls, ∃ error, call = .error error

/-- **How retrying ends**: with a success, with a `PermanentTreasuryError`
that is thrown on, or with the last of too many other errors. -/
inductive Ends {α : Type} : Retries.History Thrown α → Prop
  | succeeded (before : List (Except Thrown α)) (hbefore : Failing before) (answer : α) :
    Ends ⟨before ++ [.ok answer], .ok answer⟩
  | thrown (before : List (Except Thrown α)) (hbefore : Failing before) (error : Thrown)
      (hpermanent : error.isPermanent = true) :
    Ends ⟨before ++ [.error error], .error (.thrown error)⟩
  | exhausted (before : List (Except Thrown α)) (hbefore : Failing before) (error : Thrown)
      (hpermanent : error.isPermanent = false) :
    Ends ⟨before ++ [.error error], .error (.exhausted error)⟩

theorem withRetry_ends {α : Type} (fn : Nat → Except Thrown α) (policy : RetryPolicy) :
    Ends (Thrown.withRetry fn policy) := by
  obtain ⟨before, last, hcalls, hresult, -, hbefore⟩ := @attempts_spec _ _
    (fun error => error.classifyFailure == .permanent) fn 1 (policy.maxAttempts - 1)
  have hfailing : Failing before := fun call hcall =>
    let ⟨error, herror, _⟩ := hbefore call hcall
    ⟨error, herror⟩
  have hhistory : Thrown.withRetry fn policy = ⟨before ++ [last],
      Retries.conclude (fun error => error.classifyFailure == .permanent) last⟩ := by
    rw [← hcalls, ← hresult]
    rfl
  rw [hhistory]
  cases last with
  | ok answer => exact .succeeded before hfailing answer
  | error error =>
    by_cases hpermanent : error.isPermanent = true
    · have hfatal : error.classifyFailure = .permanent := by simpa using hpermanent
      rw [Retries.conclude, if_pos (by simp [hfatal])]
      exact .thrown before hfailing error hpermanent
    · have hfatal : error.classifyFailure ≠ .permanent := by simpa using hpermanent
      rw [Retries.conclude, if_neg (by simpa using hfatal)]
      exact .exhausted before hfailing error (by simpa using hpermanent)

theorem length_withRetry {α : Type} (fn : Nat → Except Thrown α) {policy : RetryPolicy}
    (hpolicy : 1 ≤ policy.maxAttempts) :
    (Thrown.withRetry fn policy).calls.length ≤ policy.maxAttempts := by
  have hlength := @length_calls _ _ (fun error => error.classifyFailure == .permanent) fn 1
    (policy.maxAttempts - 1)
  have hleft : policy.maxAttempts - 1 + 1 = policy.maxAttempts := by omega
  rw [hleft] at hlength
  exact hlength

/-- A `PermanentTreasuryError` of the first call is not tried again. -/
theorem withRetry_of_permanent {α : Type} {fn : Nat → Except Thrown α} {error : Thrown}
    (h : fn 1 = .error error) (hpermanent : error.isPermanent = true) (policy : RetryPolicy) :
    (Thrown.withRetry fn policy).calls = [.error error] := by
  have hfatal : (error.classifyFailure == .permanent) = true := by simpa using hpermanent
  rw [Thrown.withRetry, attempts_of_fatal h hfatal]

/-! ## The course of a call -/

section Course

variable (answers : Answers) (message : InboundMessage)

/-- **How a call can go on** after its attempts: it leaves the message where
it is, it commits what has been applied or skipped, it fails to publish the
dead letter, or it publishes it and commits. -/
inductive Course (calls : List (Except Thrown HandleOutcome)) : Processing → Prop
  | left (rejection : Rejection) : Course calls ⟨[], .error rejection⟩
  | settled (outcome : HandleOutcome) (hcall : Except.ok outcome ∈ calls)
      (houtcome : outcome = .applied ∨ outcome = .skipped) :
    Course calls (commitOffset answers message)
  | unpublished (reason : QuarantineReason) (publishes : List (Except Thrown Unit))
      (hfailing : Failing publishes) (rejection : Rejection) :
    Course calls ⟨publishes.map (.published (quarantineRecord message reason)), .error rejection⟩
  | quarantined (reason : QuarantineReason) (before : List (Except Thrown Unit))
      (hbefore : Failing before) :
    Course calls ⟨(before ++ [Except.ok ()]).map (.published (quarantineRecord message reason)) ++
      (commitOffset answers message).effects, (commitOffset answers message).result⟩

variable {answers message} {policy : RetryPolicy} {calls : List (Except Thrown HandleOutcome)}

theorem Failing.concat {α : Type} {before : List (Except Thrown α)} (h : Failing before)
    (error : Thrown) : Failing (before ++ [.error error]) := by
  intro call hcall
  rcases List.mem_append.mp hcall with hcall | hcall
  · exact h call hcall
  · exact ⟨error, List.mem_singleton.mp hcall⟩

theorem quarantine_course (reason : QuarantineReason) :
    Course answers message calls
      ((quarantine policy answers message reason).andThen (commitOffset answers message)) := by
  have hends := withRetry_ends answers.publish policy
  rw [quarantine]
  generalize Thrown.withRetry answers.publish policy = attempted at hends
  cases hends with
  | succeeded before hbefore answer => exact .quarantined reason before hbefore
  | thrown before hbefore error => exact .unpublished reason _ (hbefore.concat error) _
  | exhausted before hbefore error => exact .unpublished reason _ (hbefore.concat error) _

/-- What the attempts came to decides how the call goes on. -/
theorem conclude_course {attempted : Retries.History Thrown HandleOutcome} (h : Ends attempted) :
    Course answers message attempted.calls (conclude policy answers message attempted.result) := by
  cases h with
  | succeeded before hbefore outcome =>
    have hcall : Except.ok outcome ∈ before ++ [Except.ok outcome] :=
      List.mem_append_right _ (List.mem_singleton.mpr rfl)
    cases outcome with
    | applied => exact .settled .applied hcall (Or.inl rfl)
    | skipped => exact .settled .skipped hcall (Or.inr rfl)
    | quarantined reason => exact quarantine_course reason
  | thrown before hbefore error => exact quarantine_course .handlerFailure
  | exhausted before hbefore error =>
    simp only [conclude]
    split
    · exact .left _
    · exact quarantine_course .handlerFailure

end Course

/-- The answers of the handler's calls among the effects. -/
def Effect.answer? : Effect → Option (Except Thrown HandleOutcome)
  | .handled answer => some answer
  | _ => none

/-- The calls of the handler. -/
def Processing.handled (p : Processing) : List (Except Thrown HandleOutcome) :=
  p.effects.filterMap Effect.answer?

section Call

variable {policy : RetryPolicy} {config : Config} {answers : Answers} {message : InboundMessage}
variable {calls : List (Except Thrown HandleOutcome)} {rest : Processing}

theorem filterMap_handled : (calls.map Effect.handled).filterMap Effect.answer? = calls := by
  rw [List.filterMap_map]
  exact List.filterMap_some

/-- After its attempts, a call does not come back to the handler. -/
theorem Course.not_handled (h : Course answers message calls rest) :
    rest.effects.filterMap Effect.answer? = [] := by
  rw [List.filterMap_eq_nil_iff]
  intro effect heffect
  cases h with
  | left rejection => cases heffect
  | settled outcome hcall houtcome =>
    cases List.mem_singleton.mp heffect
    rfl
  | unpublished reason publishes hfailing rejection =>
    obtain ⟨answer, -, rfl⟩ := List.mem_map.mp heffect
    rfl
  | quarantined reason before hbefore =>
    rcases List.mem_append.mp heffect with heffect | heffect
    · obtain ⟨answer, -, rfl⟩ := List.mem_map.mp heffect
      rfl
    · cases List.mem_singleton.mp heffect
      rfl

theorem processMessage_course :
    Course answers message (Thrown.withRetry (dispatch config answers message) policy).calls
      (conclude policy answers message
        (Thrown.withRetry (dispatch config answers message) policy).result) :=
  conclude_course (withRetry_ends _ policy)

@[simp] theorem handled_processMessage : (processMessage policy config answers message).handled =
    (Thrown.withRetry (dispatch config answers message) policy).calls := by
  rw [Processing.handled, processMessage, List.filterMap_append, filterMap_handled,
    processMessage_course.not_handled, List.append_nil]

/-- Not a commit. -/
def Effect.Precedes : Effect → Prop
  | .committed _ _ => False
  | _ => True

/-- **The effects of a call**: none of them is a commit, or the last is, of
the offset after the message's, and one before it has settled the message. -/
inductive Commits (answers : Answers) (message : InboundMessage) : Processing → Prop
  | never (effects : List Effect) (heffects : ∀ effect ∈ effects, effect.Precedes)
      (rejection : Rejection) : Commits answers message ⟨effects, .error rejection⟩
  | last (before : List Effect) (hbefore : ∀ effect ∈ before, effect.Precedes)
      (hsettles : ∃ effect ∈ before, effect.Settles message) :
    Commits answers message ⟨before ++ (commitOffset answers message).effects,
      (commitOffset answers message).result⟩

theorem Course.commits (h : Course answers message calls rest) :
    Commits answers message ⟨calls.map .handled ++ rest.effects, rest.result⟩ := by
  have hhandled : ∀ effect ∈ calls.map Effect.handled, effect.Precedes := by
    intro effect heffect
    obtain ⟨answer, -, rfl⟩ := List.mem_map.mp heffect
    trivial
  have hpublished : ∀ (reason : QuarantineReason) (publishes : List (Except Thrown Unit)),
      ∀ effect ∈ calls.map Effect.handled ++ publishes.map
        (.published (quarantineRecord message reason)), effect.Precedes := by
    intro reason publishes effect heffect
    rcases List.mem_append.mp heffect with heffect | heffect
    · exact hhandled effect heffect
    · obtain ⟨answer, -, rfl⟩ := List.mem_map.mp heffect
      trivial
  cases h with
  | left rejection =>
    rw [List.append_nil]
    exact .never _ hhandled rejection
  | settled outcome hcall houtcome =>
    refine .last _ hhandled ⟨.handled (.ok outcome), List.mem_map_of_mem hcall, ?_⟩
    rcases houtcome with rfl | rfl <;> trivial
  | unpublished reason publishes hfailing rejection =>
    exact .never _ (hpublished reason publishes) rejection
  | quarantined reason before hbefore =>
    rw [← List.append_assoc]
    refine .last _ (hpublished reason _) ⟨_, List.mem_append_right _
      (List.mem_map_of_mem (List.mem_append_right _ (List.mem_singleton.mpr rfl))), reason, rfl⟩

theorem processMessage_commits :
    Commits answers message (processMessage policy config answers message) :=
  processMessage_course.commits

/-- The last of a list is its only member of a kind that no other is of. -/
theorem eq_of_append_eq {α : Type} {P : α → Prop} {pre before after : List α} {last e : α}
    (hpre : ∀ x ∈ pre, ¬ P x) (he : P e) (h : pre ++ [last] = before ++ e :: after) :
    before = pre ∧ e = last := by
  induction pre generalizing before with
  | nil =>
    cases before with
    | nil => exact ⟨rfl, (List.cons.inj h).1.symm⟩
    | cons x before =>
      have hlength := congrArg List.length h
      simp at hlength
  | cons x pre ih =>
    cases before with
    | nil => exact absurd ((List.cons.inj h).1 ▸ he) (hpre x List.mem_cons_self)
    | cons y before =>
      obtain ⟨rfl, hrest⟩ := List.cons.inj h
      obtain ⟨rfl, rfl⟩ := ih (fun z hz => hpre z (List.mem_cons_of_mem _ hz)) hrest
      exact ⟨rfl, rfl⟩

theorem Commits.behind {p : Processing} (h : Commits answers message p)
    {before after : List Effect} {next : Nat} {answer : CommitAnswer}
    (heffects : p.effects = before ++ .committed next answer :: after) :
    next = message.offset + 1 ∧ ∃ effect ∈ before, effect.Settles message := by
  cases h with
  | never effects hnever rejection =>
    have hmem : .committed next answer ∈ before ++ .committed next answer :: after :=
      List.mem_append_right _ List.mem_cons_self
    rw [← heffects] at hmem
    exact absurd (hnever _ hmem) not_false
  | last before' hbefore hsettles =>
    obtain ⟨rfl, heq⟩ := eq_of_append_eq (P := fun effect : Effect => ¬ effect.Precedes)
      (e := .committed next answer)
      (fun effect heffect => not_not_intro (hbefore effect heffect)) not_false heffects
    cases heq
    exact ⟨rfl, hsettles⟩

/-- A call that resolves has settled its message. -/
theorem Commits.settles {p : Processing} (h : Commits answers message p)
    (hresult : p.result.toBool = true) : ∃ effect ∈ p.effects, effect.Settles message := by
  cases h with
  | never effects hnever rejection => cases hresult
  | last before hbefore hsettles =>
    obtain ⟨effect, heffect, hsettles⟩ := hsettles
    exact ⟨effect, List.mem_append_left _ heffect, hsettles⟩

end Call

/-- Every call settles its message before it goes on to the next. -/
theorem proper (policy : RetryPolicy) (config : Config) (tp : TopicPartition) :
    Proper Effect.commits (handleEachMessage policy config tp) (Settles tp) := by
  intro offset message answers
  have hcommits := @processMessage_commits policy config answers (tp.inbound offset message)
  refine ⟨fun before effect after next heffects hnext => ?_, fun hresolves => ?_⟩
  · cases effect with
    | handled answer => cases hnext
    | published record answer => cases hnext
    | committed committed answer =>
      obtain ⟨rfl, hsettles⟩ := hcommits.behind heffects
      cases answer with
      | done => exact ⟨(Option.some.inj hnext).symm, Or.inr hsettles⟩
      | lost error => exact ⟨(Option.some.inj hnext).symm, Or.inr hsettles⟩
      | failed error => cases hnext
  · exact Or.inr (hcommits.settles hresolves)

/-! ## What a call keeps -/

/-- **What a call does with the offset of its message.** -/
structure KeepsOffset (policy : RetryPolicy) (config : Config) (answers : Answers)
    (message : InboundMessage) (p : Processing) : Prop where
  /-- It commits only behind what has settled the message. -/
  committed : ∀ before next answer after, p.effects = before ++ .committed next answer :: after →
    next = message.offset + 1 ∧ ∃ effect ∈ before, effect.Settles message
  /-- A transient failure of the last attempt leaves the message where it is. -/
  transient : ∀ before error, p.handled = before ++ [Except.error error] →
    error.isTransientFailure = true → error.isPermanent = false →
    (∀ effect ∈ p.effects, ∃ answer, effect = .handled answer) ∧
      ∃ rejection, p.result = .error rejection
  /-- The handler is called no more often than the policy says. -/
  attempts : p.handled.length ≤ policy.maxAttempts
  /-- And once, where it throws a `PermanentTreasuryError` at once. -/
  permanent : ∀ error, dispatch config answers message 1 = .error error →
    error.isPermanent = true → p.handled = [.error error]
  /-- A dead letter that is never published leaves the message where it is. -/
  unpublished : ∀ record error, .published record (.error error) ∈ p.effects →
    (∀ record, .published record (.ok ()) ∉ p.effects) →
    (∀ next answer, .committed next answer ∉ p.effects) ∧ ∃ rejection, p.result = .error rejection

section Keeps

variable {policy : RetryPolicy} {config : Config} {answers : Answers} {message : InboundMessage}

theorem processMessage_transient {before : List (Except Thrown HandleOutcome)} {error : Thrown}
    (hcalls : (Thrown.withRetry (dispatch config answers message) policy).calls =
      before ++ [.error error])
    (htransient : error.isTransientFailure = true) (hpermanent : error.isPermanent = false) :
    processMessage policy config answers message =
      ⟨(before ++ [Except.error error]).map .handled, .error (.stopped (.exhausted error))⟩ := by
  have hends := withRetry_ends (dispatch config answers message) policy
  rw [processMessage]
  generalize Thrown.withRetry (dispatch config answers message) policy = attempted at hcalls hends
  cases hends with
  | succeeded before' hbefore answer =>
    have hlast := (List.append_inj' hcalls rfl).2
    cases hlast
  | thrown before' hbefore error' hthrown =>
    have hlast := (List.append_inj' hcalls rfl).2
    cases hlast
    rw [hpermanent] at hthrown
    cases hthrown
  | exhausted before' hbefore error' =>
    obtain ⟨rfl, hlast⟩ := List.append_inj' hcalls rfl
    cases hlast
    simp only [conclude, htransient, if_true, List.append_nil]

/-- Where no dead letter is published but one was to be, there is no commit. -/
theorem Course.unpublished_of {calls : List (Except Thrown HandleOutcome)} {rest : Processing}
    (h : Course answers message calls rest) {record : DlqRecord} {error : Thrown}
    (herror : .published record (.error error) ∈ rest.effects)
    (hnone : ∀ record, .published record (.ok ()) ∉ rest.effects) :
    (∀ next answer, .committed next answer ∉ rest.effects) ∧
      ∃ rejection, rest.result = .error rejection := by
  cases h with
  | left rejection => cases herror
  | settled outcome hcall houtcome =>
    have heq := List.mem_singleton.mp herror
    cases heq
  | unpublished reason publishes hfailing rejection =>
    refine ⟨fun next answer hcommitted => ?_, rejection, rfl⟩
    obtain ⟨publish, -, heq⟩ := List.mem_map.mp hcommitted
    cases heq
  | quarantined reason before hbefore =>
    refine absurd ?_ (hnone (quarantineRecord message reason))
    exact List.mem_append_left _ (List.mem_map_of_mem
      (List.mem_append_right _ (List.mem_singleton.mpr rfl)))

theorem not_mem_handled {calls : List (Except Thrown HandleOutcome)} {effect : Effect}
    (h : effect.answer? = none) : effect ∉ calls.map Effect.handled := by
  intro hmem
  obtain ⟨answer, -, rfl⟩ := List.mem_map.mp hmem
  cases h

theorem keepsOffset (hpolicy : 1 ≤ policy.maxAttempts) :
    KeepsOffset policy config answers message (processMessage policy config answers message) where
  committed _ _ _ _ heffects := processMessage_commits.behind heffects
  transient before error hhandled htransient hpermanent := by
    rw [handled_processMessage] at hhandled
    rw [processMessage_transient hhandled htransient hpermanent]
    refine ⟨fun effect heffect => ?_, _, rfl⟩
    obtain ⟨answer, -, rfl⟩ := List.mem_map.mp heffect
    exact ⟨answer, rfl⟩
  attempts := by
    rw [handled_processMessage]
    exact length_withRetry _ hpolicy
  permanent error hfirst hpermanent := by
    rw [handled_processMessage]
    exact withRetry_of_permanent hfirst hpermanent policy
  unpublished record error herror hnone := by
    obtain ⟨hcommits, hresult⟩ := processMessage_course.unpublished_of
      ((List.mem_append.mp herror).resolve_left (not_mem_handled rfl))
      fun record hok => hnone record (List.mem_append_right _ hok)
    refine ⟨fun next answer hcommitted => ?_, hresult⟩
    rcases List.mem_append.mp hcommitted with hcommitted | hcommitted
    · exact not_mem_handled rfl hcommitted
    · exact hcommits next answer hcommitted

end Keeps

/-- **An offset is committed only for a settled message.** A call commits
its message's offset behind what has settled the message alone, and in
every run of the group from committed offsets on, nothing that was beyond
them is below a committed offset and not settled. -/
theorem offsets_committed_settled (policy : RetryPolicy) (config : Config)
    (hpolicy : 1 ≤ policy.maxAttempts) :
    (∀ answers message, KeepsOffset policy config answers message
      (processMessage policy config answers message)) ∧
    ∀ (base : TopicPartition → Nat) g,
      (consumerGroup policy config fun g => ∀ tp, CommittedAt (base tp) (g tp)).Reached g →
      ∀ tp next, (g tp).committed = some next → SettledFrom (Settles tp) (base tp) (g tp) next :=
  ⟨fun _ _ => keepsOffset hpolicy, fun _ _ hreached tp =>
    (disciplined_of_reached (proper policy config) hreached tp).1.committed⟩

/-! A message whose first attempt is refused a connection, and whose second
applies it. -/

/-- A partition of the events' topic. -/
def eventsPartition : TopicPartition := ⟨"treasury.capacity.events", 0⟩

/-- A message, of which nothing matters here. -/
def anyMessage : KafkaMessage := ⟨none, none, []⟩

/-- What `pg` throws where the database cannot be reached. -/
def connectionRefused : Thrown := .object { code := some "ECONNREFUSED" }

/-- The second attempt applies the message. -/
def secondApplies : Answers where
  handler attempt := if attempt < 2 then .error connectionRefused else .ok .applied
  snapshotHandler _ := .ok .applied
  publish _ := .ok ()
  commit := .done

/-- The message is appended, delivered, tried twice and committed. -/
def secondAppliesRun : List (TopicPartition × Event KafkaMessage Answers) :=
  [.append anyMessage, .join, .deliver secondApplies, .perform 0, .perform 0, .perform 0].map
    (eventsPartition, ·)

theorem offsets_committed_settled_second :
    ∃ g, (consumerGroup ⟨3⟩ {} fun g => ∀ tp, CommittedAt 0 (g tp)).run secondAppliesRun
        (fun _ => ⟨[], some 0, none, [], []⟩) = some g ∧
      (g eventsPartition).committed = some 1 ∧
      SettledFrom (Settles eventsPartition) 0 (g eventsPartition) 1 := by
  have hrun : ((consumerGroup ⟨3⟩ {} fun g => ∀ tp, CommittedAt 0 (g tp)).run secondAppliesRun
      (fun _ => ⟨[], some 0, none, [], []⟩)).map (fun g => (g eventsPartition).committed) =
        some (some 1) := by decide +kernel
  obtain ⟨g, hg, hcommitted⟩ := Option.map_eq_some_iff.mp hrun
  have hstart : (consumerGroup ⟨3⟩ {} fun g => ∀ tp, CommittedAt 0 (g tp)).Reached
      fun _ => ⟨[], some 0, none, [], []⟩ := .start fun _ => ⟨rfl, rfl, rfl, rfl⟩
  exact ⟨g, hg, hcommitted, (offsets_committed_settled ⟨3⟩ {} (by decide)).2 (fun _ => 0) g
    (hstart.run hg) eventsPartition 1 hcommitted⟩

end TreasuryConsumer

end InvoiceReservation
