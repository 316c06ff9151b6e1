import InvoiceReservation.Helpers.Pipeline
import InvoiceReservation.Properties.OffsetCommits
/-!
# Exactly once, end to end

The broker delivers a message at least once and a consumer may go down at
any time; the database records a message with its effect. Together: the
database is what the operations and the messages leave one after another,
each message from one position of one log and at most once, and from the
committed offset a partition starts at up to a later one every message was
applied, or had been seen, or is in the dead letter topic. `Faithful` is the
invariant, kept by every step.
-/

namespace InvoiceReservation

open Transactions Partitions

namespace TreasuryConsumer

variable [Sha256]

/-! ## Works -/

/-- A message of a log, applied. -/
structure Delivery where
  tp : TopicPartition
  offset : Nat
  rt : Runtime
  message : TreasuryMessage

/-- Where it was read. -/
def Delivery.coordinates (d : Delivery) : StreamCoordinates :=
  ⟨d.tp.topic, d.tp.partition, d.offset⟩

/-- What is done to the database. -/
inductive Work
  | operation (op : Operation)
  | delivery (d : Delivery)

/-- The delivery a work is. -/
def Work.delivery? : Work → Option Delivery
  | operation _ => none
  | delivery d => some d

/-- What it leaves. -/
def Work.effect : Work → Db → Db
  | operation op, db => engine.effect op.tx db
  | delivery d, db => engine.effect (d.message.apply d.rt d.coordinates) db

/-- The position of the log a work is about. -/
def Work.position? (w : Work) : Option (TopicPartition × Nat) :=
  w.delivery?.map fun d => (d.tp, d.offset)

/-- The id of the message a work is about. -/
def Work.messageId? (w : Work) : Option String := w.delivery?.map (·.message.messageId)

theorem Work.later (w : Work) (db : Db) : db.Later (w.effect db) := by
  cases w with
  | operation op =>
    exact Engine.effect_induct (P := db.Later) (.refl db) fun _ _ h => (op.changes h).later
  | delivery d =>
    refine Engine.effect_induct (P := db.Later) (.refl db) fun outcome db' h => ?_
    cases d.message.applies h with
    | seen hseen => exact .refl db
    | quarantined reason => exact .refl db
    | worked hidle hnew hrecorded hchange => exact hchange.later

/-- The database as a store of works, of which it records the messages. -/
def database : Store Db Work String where
  effect := Work.effect
  identity? := Work.messageId?
  recorded db messageId := (db.message? messageId).isSome = true
  keeps w db _ h := (w.later db).message? h

/-! ## The invariant -/

variable (policy : RetryPolicy) (config : Config) (dateParse : List ℕ → Option Timestamp)
variable (base : TopicPartition → Nat)

/-- What an answer about a message stands for. -/
def Accounted (works : List Work) (s : Pipeline) (tp : TopicPartition) (offset : Nat) :
    HandleOutcome → Prop
  | .applied => ∃ rt m, Work.delivery ⟨tp, offset, rt, m⟩ ∈ works
  | .skipped => ∃ message m, (s.partitions tp).log[offset]? = some message ∧
      (tp.inbound offset message).parse config dateParse = .ok m ∧ m.Seen s.db
  | .quarantined _ => True

/-- **The pipeline is faithful to some works**: they are what was done to the
database, the deliveries among them are what the logs hold, and every answer
stands for what it says. -/
structure Faithful (db : Db) (works : List Work) (s : Pipeline) : Prop where
  done : database.Done db works s.db
  operations : ∀ op, .operation op ∈ works → (Activity.operation op).inbound? = none
  past : ∀ c, s.Seen c → c.Later s.db
  logged : ∀ d, .delivery d ∈ works → ∃ message, (s.partitions d.tp).log[d.offset]? = some message ∧
    (d.tp.inbound d.offset message).parse config dateParse = .ok d.message
  answered : ∀ tp offset outcome, (offset, .handled (.ok outcome)) ∈ (s.partitions tp).done →
    Accounted config dateParse works s tp offset outcome
  reached : (consumerGroup policy config fun g => ∀ tp, CommittedAt (base tp) (g tp)).Reached
    s.partitions

variable {policy config dateParse base} {db db' : Db} {works works' : List Work}
variable {s s' : Pipeline} {tp : TopicPartition} {offset : Nat} {message : KafkaMessage}
variable {answer : Except Thrown HandleOutcome} {outcome : HandleOutcome}
variable {event : Event KafkaMessage Answers} {p : Partition KafkaMessage Effect}

omit [Sha256] in
theorem getElem?_of_prefix {log log' : List KafkaMessage} (h : log <+: log')
    (hmessage : log[offset]? = some message) : log'[offset]? = some message := by
  obtain ⟨hlt, rfl⟩ := List.getElem?_eq_some_iff.mp hmessage
  exact List.prefix_iff_getElem?.mp h offset hlt

omit [Sha256] in
theorem Accounted.mono (h : Accounted config dateParse works s tp offset outcome)
    (hworks : works ⊆ works') (hlater : s.db.Later s'.db)
    (hlog : (s.partitions tp).log <+: (s'.partitions tp).log) :
    Accounted config dateParse works' s' tp offset outcome := by
  cases outcome with
  | applied =>
    obtain ⟨rt, m, hmem⟩ := h
    exact ⟨rt, m, hworks hmem⟩
  | skipped =>
    obtain ⟨message, m, hmessage, hparse, hseen⟩ := h
    exact ⟨message, m, getElem?_of_prefix hlog hmessage, hparse, hseen.later hlater⟩
  | quarantined reason => trivial

/-- **What a step has to show**: its works, and the answers it adds. -/
theorem Faithful.extend (h : Faithful policy config dateParse base db works s)
    (hdone : database.Done db works' s'.db) (hworks : works ⊆ works')
    (hoperations : ∀ op, .operation op ∈ works' → (Activity.operation op).inbound? = none)
    (hlater : s.db.Later s'.db) (hpast : ∀ c, s'.Seen c → c = s'.db ∨ s.Seen c)
    (hlog : ∀ tp, (s.partitions tp).log <+: (s'.partitions tp).log)
    (hlogged : ∀ d, .delivery d ∈ works' → .delivery d ∈ works ∨
      ∃ message, (s'.partitions d.tp).log[d.offset]? = some message ∧
        (d.tp.inbound d.offset message).parse config dateParse = .ok d.message)
    (hanswered : ∀ tp offset outcome, (offset, .handled (.ok outcome)) ∈ (s'.partitions tp).done →
      (offset, .handled (.ok outcome)) ∈ (s.partitions tp).done ∨
        Accounted config dateParse works' s' tp offset outcome)
    (hreached : (consumerGroup policy config fun g => ∀ tp, CommittedAt (base tp) (g tp)).Reached
      s'.partitions) : Faithful policy config dateParse base db works' s' where
  done := hdone
  operations := hoperations
  past c hc := by
    rcases hpast c hc with rfl | hc
    · exact .refl _
    · exact (h.past c hc).trans hlater
  logged d hd := by
    rcases hlogged d hd with hd | hd
    · obtain ⟨message, hmessage, hparse⟩ := h.logged d hd
      exact ⟨message, getElem?_of_prefix (hlog d.tp) hmessage, hparse⟩
    · exact hd
  answered tp offset outcome hdone := by
    rcases hanswered tp offset outcome hdone with hold | hnew
    · exact (h.answered tp offset outcome hold).mono hworks hlater (hlog tp)
    · exact hnew
  reached := hreached

/-! ## Steps -/

omit [Sha256] in
/-- The partitions after one of them moved. -/
theorem log_update (hmoves : moves policy config tp event (s.partitions tp) = some p)
    (tp' : TopicPartition) :
    (s.partitions tp').log <+: (Function.update s.partitions tp p tp').log := by
  by_cases htp : tp' = tp
  · subst htp
    rw [Function.update_self]
    exact log_step hmoves
  · exact (Function.update_of_ne htp p s.partitions).symm ▸ List.prefix_rfl

omit [Sha256] in
theorem reached_update
    (h : (consumerGroup policy config fun g => ∀ tp, CommittedAt (base tp) (g tp)).Reached
      s.partitions)
    (hmoves : moves policy config tp event (s.partitions tp) = some p) :
    (consumerGroup policy config fun g => ∀ tp, CommittedAt (base tp) (g tp)).Reached
      (Function.update s.partitions tp p) := by
  refine h.step (tp, event) ?_
  exact congrArg (Option.map (Function.update s.partitions tp)) hmoves

omit [Sha256] in
/-- The one answer a partition that moved can have added: its attempt's. -/
theorem mem_done_update (hmoves : moves policy config tp event (s.partitions tp) = some p)
    {tp' : TopicPartition}
    (h : (offset, .handled answer) ∈ (Function.update s.partitions tp p tp').done) :
    (offset, .handled answer) ∈ (s.partitions tp').done ∨
      tp' = tp ∧ attempt? (s.partitions tp) event = some (offset, answer) := by
  by_cases htp : tp' = tp
  swap
  · rw [Function.update_of_ne htp] at h
    exact Or.inl h
  subst htp
  rw [Function.update_self] at h
  rcases done_step hmoves with hdone | ⟨i, offset', effect, rest, resolves, rfl, hcall, hdone⟩
  · rw [hdone] at h
    exact Or.inl h
  · rw [hdone, List.mem_append, List.mem_singleton] at h
    refine h.imp_right fun heq => ⟨rfl, ?_⟩
    cases heq
    simp only [attempt?, hcall]

/-- **What an attempt comes to**: nothing, and then what it skips was seen,
or the work of its message. -/
theorem Attempt.cases {inbound : InboundMessage} {seen : Db → Prop}
    (h : Attempt config dateParse inbound seen db answer db') (hseen : ∀ c, seen c → c.Later db) :
    db' = db ∧ answer ≠ .ok .applied ∧
        (answer = .ok .skipped → ∃ m, inbound.parse config dateParse = .ok m ∧ m.Seen db) ∨
      ∃ m rt outcome, inbound.parse config dateParse = .ok m ∧
        engine.run (m.apply rt inbound.coordinates) db = .ok (outcome, db') ∧
        db.message? m.messageId = none ∧ (db'.message? m.messageId).isSome = true := by
  cases h with
  | rejected hparse => exact Or.inl ⟨rfl, by simp, by simp⟩
  | @inspected m found outcome hparse hanswered hfound =>
    refine Or.inl ⟨rfl, fun he => ?_, fun he => ?_⟩
    · cases he
      cases found <;> cases hfound
    · cases he
      cases found with
      | alreadyApplied => exact ⟨m, hparse, TreasuryMessage.seen_of_answered hanswered hseen⟩
      | proceed => cases hfound
      | quarantined reason => cases hfound
  | @committed m rt outcome db' hparse hrun =>
    cases m.applies hrun with
    | seen hseen =>
      exact Or.inl ⟨rfl, by simp [ApplyOutcome.toHandleOutcome], fun _ => ⟨m, hparse, hseen⟩⟩
    | quarantined reason =>
      refine Or.inl ⟨rfl, ?_, ?_⟩ <;> simp [ApplyOutcome.toHandleOutcome]
    | worked hidle hnew hrecorded hchange =>
      exact Or.inr ⟨m, rt, outcome, hparse, hrun, hnew, hrecorded⟩
  | failed error => exact Or.inl ⟨rfl, by simp, by simp⟩
  | @unanswered m rt outcome db' error hparse hrun =>
    cases m.applies hrun with
    | seen hseen => exact Or.inl ⟨rfl, by simp, by simp⟩
    | quarantined reason => exact Or.inl ⟨rfl, by simp, by simp⟩
    | worked hidle hnew hrecorded hchange =>
      exact Or.inr ⟨m, rt, outcome, hparse, hrun, hnew, hrecorded⟩

omit [Sha256] in
theorem seen_commit {c : Db} (h : (s.commit db').Seen c) : c = db' ∨ s.Seen c := by
  rcases h with h | h
  · exact Or.inl h
  · exact Or.inr ((List.mem_cons.mp h).imp id id)

/-- **An attempt**, whatever becomes of its answer. -/
theorem Faithful.attempted (h : Faithful policy config dateParse base db works s)
    (hmoves : moves policy config tp event (s.partitions tp) = some p)
    (hmessage : (s.partitions tp).log[offset]? = some message)
    (hattempt : Attempt config dateParse (tp.inbound offset message) s.Seen s.db answer db')
    (hanswer : ∀ offset' answer', attempt? (s.partitions tp) event = some (offset', answer') →
      offset' = offset ∧ answer' = answer) :
    ∃ works', Faithful policy config dateParse base db works'
      ({ s with partitions := Function.update s.partitions tp p }.commit db') := by
  have hlogged : (Function.update s.partitions tp p tp).log[offset]? = some message :=
    getElem?_of_prefix (log_update hmoves tp) hmessage
  have hnew : ∀ {tp' offset' outcome}, (offset', .handled (.ok outcome)) ∈
      (Function.update s.partitions tp p tp').done →
      (offset', .handled (.ok outcome)) ∈ (s.partitions tp').done ∨
        tp' = tp ∧ offset' = offset ∧ answer = .ok outcome := by
    intro tp' offset' outcome hdone
    refine (mem_done_update hmoves hdone).imp_right fun ⟨htp, hsome⟩ => ?_
    obtain ⟨hoffset, hanswer'⟩ := hanswer _ _ hsome
    exact ⟨htp, hoffset, hanswer'.symm⟩
  rcases hattempt.cases h.past with
    ⟨rfl, hnot, hskipped⟩ | ⟨m, rt, result, hparse, hrun, hid, hrecorded⟩
  · refine ⟨works, h.extend h.done (List.Subset.refl _) h.operations (.refl _)
      (fun c => seen_commit) (log_update hmoves) (fun d hd => Or.inl hd)
      (fun tp' offset' outcome hdone => ?_) (reached_update h.reached hmoves)⟩
    refine (hnew hdone).imp_right ?_
    rintro ⟨rfl, rfl, rfl⟩
    cases outcome with
    | applied => exact absurd rfl hnot
    | skipped =>
      obtain ⟨m, hparse, hseen⟩ := hskipped rfl
      exact ⟨message, m, hlogged, hparse, hseen⟩
    | quarantined reason => trivial
  · have heffect : (Work.delivery ⟨tp, offset, rt, m⟩).effect s.db = db' :=
      Engine.effect_of_run_ok hrun
    have hmore : database.Done db (works ++ [.delivery ⟨tp, offset, rt, m⟩]) db' := by
      have hdone := h.done.more (.delivery ⟨tp, offset, rt, m⟩)
        (fun i hi => by
          cases Option.some.inj hi
          simp [database, hid])
        (fun i hi => by
          cases Option.some.inj hi
          change (((Work.delivery ⟨tp, offset, rt, m⟩).effect s.db).message? _).isSome = true
          rw [heffect]
          exact hrecorded)
      rw [← heffect]
      exact hdone
    refine ⟨works ++ [.delivery ⟨tp, offset, rt, m⟩], h.extend hmore
      (List.subset_append_left _ _) (fun op hop => ?_) ?_ (fun c => seen_commit)
      (log_update hmoves) (fun d hd => ?_) (fun tp' offset' outcome hdone => ?_)
      (reached_update h.reached hmoves)⟩
    · rcases List.mem_append.mp hop with hop | hop
      · exact h.operations op hop
      · cases List.mem_singleton.mp hop
    · have hlater := Work.later (.delivery ⟨tp, offset, rt, m⟩) s.db
      rw [heffect] at hlater
      exact hlater
    · refine (List.mem_append.mp hd).imp_right fun hd => ?_
      cases List.mem_singleton.mp hd
      exact ⟨message, hlogged, hparse⟩
    · refine (hnew hdone).imp_right ?_
      rintro ⟨rfl, rfl, rfl⟩
      cases outcome with
      | applied => exact ⟨rt, m, List.mem_append_right _ (List.mem_singleton.mpr rfl)⟩
      | skipped =>
        exact ⟨message, m, hlogged, hparse, TreasuryMessage.seen_of_recorded hrecorded⟩
      | quarantined reason => trivial

/-- **The step lemma.** -/
theorem Faithful.step (h : Faithful policy config dateParse base db works s)
    (hs : Pipeline.Step policy config dateParse s s') :
    ∃ works', Faithful policy config dateParse base db works' s' := by
  cases hs with
  | operation op hop =>
    have hdone := h.done.plain (w := .operation op) rfl
    refine ⟨works ++ [.operation op], h.extend hdone (List.subset_append_left _ _)
      (fun op' hop' => ?_) (Work.later (.operation op) s.db) (fun c => seen_commit)
      (fun _ => List.prefix_rfl) (fun d hd => ?_) (fun _ _ _ => Or.inl) h.reached⟩
    · rcases List.mem_append.mp hop' with hop' | hop'
      · exact h.operations op' hop'
      · cases List.mem_singleton.mp hop'
        exact hop
    · refine Or.inl ((List.mem_append.mp hd).resolve_right fun hd => ?_)
      cases List.mem_singleton.mp hd
  | moved tp event hmoves hnone =>
    refine ⟨works, h.extend h.done (List.Subset.refl _) h.operations (.refl _)
      (fun c => Or.inr) (log_update hmoves) (fun d => Or.inl)
      (fun tp' offset outcome hdone => ?_) (reached_update h.reached hmoves)⟩
    refine (mem_done_update hmoves hdone).imp_right fun ⟨_, hsome⟩ => ?_
    rw [hnone] at hsome
    cases hsome
  | attempted tp event hmoves hsome hmessage hattempt =>
    refine h.attempted hmoves hmessage hattempt fun offset' answer' hsome' => ?_
    rw [hsome] at hsome'
    cases hsome'
    exact ⟨rfl, rfl⟩
  | cut tp i hmoves hsome hmessage hattempt =>
    refine h.attempted hmoves hmessage hattempt fun offset' answer' hsome' => ?_
    cases hsome'

/-! ## Runs -/

variable (policy config dateParse base)

/-- A pipeline whose group has committed an offset of every partition, and
that has done nothing yet. -/
structure Pipeline.Starts (s : Pipeline) : Prop where
  partitions : ∀ tp, CommittedAt (base tp) (s.partitions tp)
  past : s.past = []

variable {policy config dateParse base}

theorem Pipeline.Starts.faithful {start : Pipeline} (h : start.Starts base) :
    Faithful policy config dateParse base start.db [] start where
  done := .nothing
  operations op hop := by cases hop
  past c hc := by
    rcases hc with rfl | hc
    · exact .refl _
    · rw [h.past] at hc
      cases hc
  logged d hd := by cases hd
  answered tp offset outcome hdone := by
    rw [(h.partitions tp).2.2.2] at hdone
    cases hdone
  reached := .start h.partitions

theorem Faithful.steps (h : Faithful policy config dateParse base db works s)
    (hs : Pipeline.Steps policy config dateParse s s') :
    ∃ works', Faithful policy config dateParse base db works' s' := by
  induction hs with
  | refl => exact ⟨works, h⟩
  | tail _ hstep ih =>
    obtain ⟨between, hbetween⟩ := ih
    exact hbetween.step hstep

/-! ## Exactly once -/

variable (config dateParse base)

/-- What became of the message at a position: it was applied from there, or
it had been seen, or it is in the dead letter topic. -/
def Resolved (works : List Work) (s : Pipeline) (tp : TopicPartition) (offset : Nat) : Prop :=
  ∃ message, (s.partitions tp).log[offset]? = some message ∧
    ((∃ rt m, Work.delivery ⟨tp, offset, rt, m⟩ ∈ works) ∨
      (∃ m, (tp.inbound offset message).parse config dateParse = .ok m ∧ m.Seen s.db) ∨
      ∃ reason, (offset, .published (quarantineRecord (tp.inbound offset message) reason)
        (.ok ())) ∈ (s.partitions tp).done)

/-- **What was done to the database since**, and what the broker may forget. -/
structure ExactlyOnce (start s : Pipeline) (works : List Work) : Prop where
  /-- The database is what the works leave, one after another. -/
  database : s.db = works.foldl (fun db w => w.effect db) start.db
  /-- They are operations that handle no message, and deliveries. -/
  operations : ∀ op, .operation op ∈ works → (Activity.operation op).inbound? = none
  /-- No position is delivered twice. -/
  positions : (works.filterMap Work.position?).Nodup
  /-- No message is, and none that the database knew. -/
  messages : (works.filterMap Work.messageId?).Nodup ∧
    ∀ messageId ∈ works.filterMap Work.messageId?, start.db.message? messageId = none
  /-- What is delivered is what the log says, and is recorded. -/
  logged : ∀ d, .delivery d ∈ works → (s.db.message? d.message.messageId).isSome = true ∧
    ∃ message, (s.partitions d.tp).log[d.offset]? = some message ∧
      (d.tp.inbound d.offset message).parse config dateParse = .ok d.message
  /-- What was answered as applied was applied. -/
  applied : ∀ tp offset, (offset, .handled (.ok .applied)) ∈ (s.partitions tp).done →
    ∃ rt m, Work.delivery ⟨tp, offset, rt, m⟩ ∈ works
  /-- What is below a committed offset is resolved. -/
  resolved : ∀ tp offset next, (s.partitions tp).committed = some next → base tp ≤ offset →
    offset < next → Resolved config dateParse works s tp offset

variable {config dateParse base}

omit [Sha256] in
theorem mem_deliveries {d : Delivery} :
    d ∈ works.filterMap Work.delivery? ↔ .delivery d ∈ works := by
  rw [List.mem_filterMap]
  constructor
  · rintro ⟨w, hw, hd⟩
    cases w with
    | operation op => cases hd
    | delivery d' =>
      cases hd
      exact hw
  · exact fun hd => ⟨_, hd, rfl⟩

/-- Positions are as far apart as the messages they hold. -/
theorem Faithful.nodup_positions (h : Faithful policy config dateParse base db works s) :
    (works.filterMap Work.position?).Nodup := by
  have hids : ((works.filterMap Work.delivery?).map (·.message.messageId)).Nodup := by
    rw [List.map_filterMap]
    exact h.done.nodup
  have hpositions : works.filterMap Work.position? =
      (works.filterMap Work.delivery?).map fun d => (d.tp, d.offset) := List.map_filterMap.symm
  rw [hpositions]
  refine hids.of_map.map_on fun d hd d' hd' hposition => ?_
  refine List.inj_on_of_nodup_map hids hd hd' ?_
  obtain ⟨htp, hoffset⟩ := Prod.mk.inj hposition
  obtain ⟨message, hmessage, hparse⟩ := h.logged d (mem_deliveries.mp hd)
  obtain ⟨message', hmessage', hparse'⟩ := h.logged d' (mem_deliveries.mp hd')
  rw [← htp, ← hoffset] at hmessage' hparse'
  obtain rfl : message = message' := Option.some.inj (hmessage.symm.trans hmessage')
  rw [Except.ok.inj (hparse.symm.trans hparse')]

theorem Faithful.resolved (h : Faithful policy config dateParse base db works s) {next : Nat}
    (hnext : (s.partitions tp).committed = some next) (hbase : base tp ≤ offset)
    (hlt : offset < next) : Resolved config dateParse works s tp offset := by
  have hdisciplined := (disciplined_of_reached (proper policy config) h.reached tp).1
  obtain ⟨message, effect, hmessage, heffect, hsettles⟩ :=
    hdisciplined.committed next hnext offset hbase hlt
  refine ⟨message, hmessage, ?_⟩
  cases effect with
  | committed next answer => exact hsettles.elim
  | published record answer =>
    cases answer with
    | error error => exact hsettles.elim
    | ok u =>
      obtain ⟨reason, rfl⟩ := hsettles
      exact Or.inr (Or.inr ⟨reason, heffect⟩)
  | handled answer =>
    cases answer with
    | error error => exact hsettles.elim
    | ok outcome =>
      have haccounted := h.answered tp offset outcome heffect
      cases outcome with
      | quarantined reason => exact hsettles.elim
      | applied => exact Or.inl haccounted
      | skipped =>
        obtain ⟨message', m, hmessage', hparse, hseen⟩ := haccounted
        obtain rfl : message' = message := Option.some.inj (hmessage'.symm.trans hmessage)
        exact Or.inr (Or.inl ⟨m, hparse, hseen⟩)

/-- **Exactly once, end to end.** The run starts where every partition has a
committed offset. However messages are redelivered, wherever a consumer goes
down and whatever else writes to the database meanwhile, what was done to the
database is what some works do one after another, each message once and from
where its log has it; and from the offset a partition starts at, no message
that was not resolved is below a committed one. -/
theorem treasury_exactly_once (policy : RetryPolicy) (config : Config)
    (dateParse : List ℕ → Option Timestamp) (base : TopicPartition → ℕ) {start s : Pipeline}
    (hstart : start.Starts base) (hs : Pipeline.Steps policy config dateParse start s) :
    ∃ works, ExactlyOnce config dateParse base start s works := by
  obtain ⟨works, h⟩ := hstart.faithful.steps hs
  refine ⟨works, h.done.eq_foldl, h.operations, h.nodup_positions,
    ⟨h.done.nodup, fun messageId hid => ?_⟩, fun d hd => ⟨?_, h.logged d hd⟩,
    fun tp offset hdone => h.answered tp offset .applied hdone, fun tp offset next => h.resolved⟩
  · exact Option.not_isSome_iff_eq_none.mp (h.done.not_recorded hid)
  · exact h.done.recorded (List.mem_filterMap.mpr ⟨_, hd, rfl⟩)

end TreasuryConsumer

end InvoiceReservation

namespace InvoiceReservation

open Transactions Partitions

namespace TreasuryConsumer

attribute [local instance] trafficSha256

/-! A booking whose first attempt commits and is not answered: the second
finds it recorded. -/

/-- `Date.parse`, of the one date below. -/
def epoch (s : List ℕ) : Option Timestamp :=
  if s = Utf.units "1970-01-01T00:00:00.000Z" then some 0 else none

/-- A booking of 100, as treasury sends it. -/
def bookingMessage : KafkaMessage where
  key := none
  value := some ((Utf.encode (Utf.units ("\x7b\"messageId\":\"evt-00001\",\"programId\":\"" ++
    northwindUsdProgramId ++ "\",\"version\":1,\"effectiveAt\":\"1970-01-01T00:00:00.000Z\"," ++
    "\"type\":\"RESERVATION_BOOKED\",\"payload\":\x7b\"amountMinor\":\"100\"," ++
    "\"currency\":\"USD\"\x7d\x7d"))).map UInt8.ofNat)
  headers := []

/-- The event it is. -/
def bookedEvent : CapacityEvent := capacityEvent "evt-00001" 1 .reservationBooked 100

theorem eq_ok_of_toOption {ε α : Type} {x : Except ε α} {a : α} (h : x.toOption = some a) :
    x = .ok a := by
  cases x with
  | error e => cases h
  | ok b => cases h; rfl

theorem parse_bookingMessage : (eventsPartition.inbound 0 bookingMessage).parse {} epoch =
    .ok (.event bookedEvent) :=
  eq_ok_of_toOption (by decide +kernel)

/-- The first attempt is not answered, and the second skips the message. -/
def firstUnanswered : Answers where
  handler attempt := if attempt < 2 then .error connectionRefused else .ok .skipped
  snapshotHandler _ := .ok .skipped
  publish _ := .ok ()
  commit := .done

/-- A partition of which nothing has been read. -/
def unreadPartition : Partition KafkaMessage Effect := ⟨[], some 0, none, [], []⟩

/-- The pipeline with one partition as given, and nothing in the others. -/
def Pipeline.ofEvents (p : Partition KafkaMessage Effect) (db : Db) (past : List Db) : Pipeline :=
  ⟨Function.update (fun _ => unreadPartition) eventsPartition p, db, past⟩

theorem Pipeline.ofEvents_partition {p : Partition KafkaMessage Effect} {db : Db}
    {past : List Db} : (Pipeline.ofEvents p db past).partitions eventsPartition = p := by
  simp [Pipeline.ofEvents]

theorem Pipeline.ofEvents_db {p : Partition KafkaMessage Effect} {db : Db} {past : List Db} :
    (Pipeline.ofEvents p db past).db = db := rfl

theorem Pipeline.update_ofEvents {p p' : Partition KafkaMessage Effect} {db : Db}
    {past : List Db} : Function.update (Pipeline.ofEvents p db past).partitions eventsPartition p' =
      (Pipeline.ofEvents p' db past).partitions :=
  Function.update_idem ..

/-- The partition moves, without an attempt. -/
theorem Pipeline.Step.ofMoved {p p' : Partition KafkaMessage Effect} {db : Db} {past : List Db}
    (event : Event KafkaMessage Answers) (hmoves : moves ⟨3⟩ {} eventsPartition event p = some p')
    (hnone : attempt? p event = none) :
    Pipeline.Step ⟨3⟩ {} epoch (.ofEvents p db past) (.ofEvents p' db past) := by
  rw [← @Pipeline.ofEvents_partition p db past] at hmoves hnone
  have hstep : Pipeline.Step ⟨3⟩ {} epoch _ _ := .moved eventsPartition event hmoves hnone
  rw [Pipeline.update_ofEvents] at hstep
  exact hstep

/-- An attempt at the booking. -/
theorem Pipeline.Step.ofAttempted {p p' : Partition KafkaMessage Effect} {db db' : Db}
    {past : List Db} {answer : Except Thrown HandleOutcome}
    (event : Event KafkaMessage Answers) (hmoves : moves ⟨3⟩ {} eventsPartition event p = some p')
    (hattempt : attempt? p event = some (0, answer)) (hmessage : p.log[0]? = some bookingMessage)
    (h : Attempt {} epoch (eventsPartition.inbound 0 bookingMessage)
      (Pipeline.ofEvents p db past).Seen db answer db') :
    Pipeline.Step ⟨3⟩ {} epoch (.ofEvents p db past) (.ofEvents p' db' (db :: past)) := by
  rw [← @Pipeline.ofEvents_partition p db past] at hmoves hattempt hmessage
  have hstep := Pipeline.Step.attempted eventsPartition event hmoves hattempt hmessage h
  rw [Pipeline.update_ofEvents] at hstep
  exact hstep

/-- The booking, delivered, with what its call has still to do. -/
def bookingPartition (committed : Nat) (done rest : List Effect) : Partition KafkaMessage Effect :=
  ⟨[bookingMessage], some committed, some 0, [⟨0, rest, true⟩], done.map (0, ·)⟩

theorem treasury_exactly_once_unanswered : ∃ start s, Pipeline.Starts (fun _ => 0) start ∧
    Pipeline.Steps ⟨3⟩ {} epoch start s ∧ s.db ≠ start.db ∧
    (s.partitions eventsPartition).committed = some 1 ∧
    ∃ works, ExactlyOnce {} epoch (fun _ => 0) start s works := by
  have hstart : Pipeline.Starts (fun _ => 0) (.ofEvents unreadPartition seeded []) := by
    refine ⟨fun tp => ?_, rfl⟩
    rw [Pipeline.ofEvents, Function.update_eq_self_iff.mpr rfl]
    exact ⟨rfl, rfl, rfl, rfl⟩
  obtain ⟨db, hrun⟩ : ∃ db, engine.run ((TreasuryMessage.event bookedEvent).apply (callAt 1)
      (eventsPartition.inbound 0 bookingMessage).coordinates) seeded = .ok (.applied, db) := by
    have happlied : ((engine.run ((TreasuryMessage.event bookedEvent).apply (callAt 1)
        (eventsPartition.inbound 0 bookingMessage).coordinates) seeded).toOption.map (·.1)) =
          some .applied := by
      rw [seeded_eq]
      decide +kernel
    obtain ⟨⟨outcome, db⟩, hok, rfl⟩ := Option.map_eq_some_iff.mp happlied
    exact ⟨db, eq_ok_of_toOption hok⟩
  have hid : (db.message? "evt-00001").isSome = true := by
    cases TreasuryMessage.applies hrun with
    | worked hidle hnew hrecorded hchange => exact hrecorded
  have hnew : (seeded.message? "evt-00001").isSome = false := by
    rw [seeded_eq]
    decide +kernel
  have hanswered : ∀ seen : Db → Prop, seen db → Answered engine seen
      (TreasuryMessage.event bookedEvent).inspect .alreadyApplied := by
    intro seen hdb
    refine .asked hdb rfl ?_
    change Answered engine seen (if (db.message? "evt-00001").isSome = true then _ else _) _
    rw [if_pos hid]
    exact .done _
  have hread : Pipeline.Steps ⟨3⟩ {} epoch (.ofEvents unreadPartition seeded [])
      (.ofEvents (bookingPartition 0 [] [.handled (.error connectionRefused),
        .handled (.ok .skipped), .committed 1 .done]) seeded []) :=
    ((Relation.ReflTransGen.single (.ofMoved (.append bookingMessage) rfl rfl)).tail
      (.ofMoved .join rfl rfl)).tail (.ofMoved (.deliver firstUnanswered) rfl rfl)
  -- the transaction commits and the connection is lost, so the message is tried again
  have htried := hread.tail (.ofAttempted (.perform 0) rfl rfl rfl
    (.unanswered (callAt 1) connectionRefused parse_bookingMessage hrun))
  have hskipped := htried.tail (.ofAttempted (.perform 0) rfl rfl rfl
    (.inspected parse_bookingMessage (hanswered _ (Or.inl rfl)) rfl))
  have hcommitted := hskipped.tail (.ofMoved (.perform 0) rfl rfl)
  refine ⟨_, _, hstart, hcommitted, fun heq => ?_, rfl,
    treasury_exactly_once ⟨3⟩ {} epoch (fun _ => 0) hstart hcommitted⟩
  rw [Pipeline.ofEvents_db, Pipeline.ofEvents_db] at heq
  rw [heq, hnew] at hid
  cases hid

end TreasuryConsumer

end InvoiceReservation
