import InvoiceReservation.Properties.OffsetCommits
/-!
# Restarts

The group subscribes with `fromBeginning: false`: a consumer that joins
goes on at the offset the group has committed for a partition, and at the
end of the log where it has committed none. A call that leaves its message
commits nothing, so a partition can still have no committed offset when its
consumer joins again, and the message it left is then skipped. No other
step of a run skips one.
-/

namespace InvoiceReservation

open Partitions Machines

namespace TreasuryConsumer

/-- The group from its first subscription on, with the ends of the logs it
found. -/
def subscribed (policy : RetryPolicy) (config : Config) (base : TopicPartition → Nat) :
    Machine (TopicPartition → Partition KafkaMessage Effect)
      (TopicPartition × Event KafkaMessage Answers) :=
  consumerGroup policy config fun g => ∀ tp, FirstJoined (base tp) (g tp)

/-- **Restarts skip nothing just where every join goes on behind what is
settled.** Along a run from the first subscription on, no consumer is ever
beyond a message that was appended since and is not settled, if and only if
each join finds a committed offset of its partition, or nothing there that
is not settled. -/
theorem restarts_skip_nothing_iff (policy : RetryPolicy) (config : Config)
    (base : TopicPartition → Nat) (g g' : TopicPartition → Partition KafkaMessage Effect)
    (events : List (TopicPartition × Event KafkaMessage Answers))
    (hstart : (subscribed policy config base).start g)
    (hrun : (subscribed policy config base).run events g = some g') :
    (∀ t, (subscribed policy config base).Visits events g t → NothingSkipped Settles base t) ↔
      ∀ tp t, (subscribed policy config base).Takes events g (tp, .join) t →
        JoinsSafely (Settles tp) (base tp) (t tp) :=
  nothingSkipped_iff (proper policy config) (fun tp => (hstart tp).disciplined) hrun

/-! A message that is applied, and one that is left and then skipped. -/

/-- A partition whose log is empty when the group first subscribes. -/
def emptyPartition : Partition KafkaMessage Effect := ⟨[], none, some 0, [], []⟩

/-- A message is applied and committed, and its consumer leaves. -/
def appliedThenLeave : List (TopicPartition × Event KafkaMessage Answers) :=
  [.append anyMessage, .deliver secondApplies, .perform 0, .perform 0, .perform 0, .finish 0,
    .leave].map (eventsPartition, ·)

/-- And then the consumer joins again. -/
def appliedThenJoin : List (TopicPartition × Event KafkaMessage Answers) :=
  appliedThenLeave ++ [(eventsPartition, .join)]

theorem restarts_skip_nothing_applied :
    ∃ g', (subscribed ⟨3⟩ {} fun _ => 0).run appliedThenJoin (fun _ => emptyPartition) = some g' ∧
      ∀ t, (subscribed ⟨3⟩ {} fun _ => 0).Visits appliedThenJoin (fun _ => emptyPartition) t →
        NothingSkipped Settles (fun _ => 0) t := by
  have hrun : (((subscribed ⟨3⟩ {} fun _ => 0).run appliedThenJoin
      fun _ => emptyPartition).map fun _ => ()) = some () := rfl
  obtain ⟨g', hg', -⟩ := Option.map_eq_some_iff.mp hrun
  refine ⟨g', hg', (restarts_skip_nothing_iff ⟨3⟩ {} (fun _ => 0) _ g' appliedThenJoin
    (fun _ => ⟨rfl, rfl, rfl, rfl, rfl⟩) hg').mpr ?_⟩
  rintro tp t ⟨before, after, hevents, hbefore⟩ hnone
  -- the only join is the last step, and there the first offset is committed
  have hothers : ∀ event ∈ appliedThenLeave, event.2 ≠ .join := by
    simp [appliedThenLeave]
  obtain ⟨rfl, hlast⟩ := eq_of_append_eq (P := fun event => event.2 = .join) hothers rfl
    hevents
  cases hlast
  have hcommitted : ((subscribed ⟨3⟩ {} fun _ => 0).run appliedThenLeave
      fun _ => emptyPartition).map (fun g => (g eventsPartition).committed) = some (some 1) := rfl
  rw [hbefore, Option.map_some, hnone] at hcommitted
  cases hcommitted

/-- The database cannot be reached. -/
def alwaysRefused : Answers where
  handler _ := .error connectionRefused
  snapshotHandler _ := .error connectionRefused
  publish _ := .ok ()
  commit := .done

/-- A message is left where it is, and the consumer joins again. -/
def leftThenJoin : List (TopicPartition × Event KafkaMessage Answers) :=
  [.append anyMessage, .deliver alwaysRefused, .perform 0, .perform 0, .perform 0, .finish 0,
    .leave, .join].map (eventsPartition, ·)

theorem leftThenJoin_skips :
    ∃ g', (subscribed ⟨3⟩ {} fun _ => 0).start (fun _ => emptyPartition) ∧
      (subscribed ⟨3⟩ {} fun _ => 0).run leftThenJoin (fun _ => emptyPartition) = some g' ∧
      ¬ NothingSkipped Settles (fun _ => 0) g' := by
  have hrun : ((subscribed ⟨3⟩ {} fun _ => 0).run leftThenJoin fun _ => emptyPartition).map
      (fun g => ((g eventsPartition).position, (g eventsPartition).done)) =
      some (some 1, List.replicate 3 (0, .handled (.error connectionRefused))) := by
    rfl
  obtain ⟨g', hg', heq⟩ := Option.map_eq_some_iff.mp hrun
  obtain ⟨hposition, hdone⟩ := Prod.mk.inj heq
  refine ⟨g', fun _ => ⟨rfl, rfl, rfl, rfl, rfl⟩, hg', fun hskipped => ?_⟩
  obtain ⟨message, effect, -, heffect, hsettles⟩ :=
    hskipped eventsPartition 1 hposition 0 (Nat.le_refl 0) Nat.zero_lt_one
  rw [hdone] at heffect
  -- all that was done about the message are the three failed attempts
  obtain ⟨-, hpair⟩ := List.mem_replicate.mp heffect
  cases hpair
  exact hsettles

end TreasuryConsumer

end InvoiceReservation
