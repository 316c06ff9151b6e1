import InvoiceReservation.Common.Separated
import InvoiceReservation.Helpers.Conversions
import InvoiceReservation.Model.Requests
import InvoiceReservation.Properties.Idempotency
import Mathlib.Data.List.Nodup
/-!
# What a fingerprint tells

A fingerprint hashes four fields with `|` between them. Of a reserve or a
release only the invoice can hold a `|`, so equal fingerprints have equal
texts. Of a cancellation the note can as well, and then the reason between
them can be found in either: two cancellations have one fingerprint and
different fields where one is shifted into the other. A string of the body
can also hold an unpaired surrogate, which is hashed as U+FFFD.
-/

namespace InvoiceReservation

open Transactions

variable {p p' i i' a a' c c' : String}

/-- A table whose digests are distinct, and begin as no digest off the table
does, has no collisions. -/
theorem Sha256.ofTable_injective {table : List (String × String)}
    (hdistinct : (table.map (·.2)).Nodup) (hhex : ∀ x ∈ table, x.2.toList.head? ≠ some '#') :
    Function.Injective (Sha256.ofTable table).digest := by
  have hoff : ∀ x ∈ table, ∀ text : String, x.2 ≠ "#" ++ text := by
    intro x hx text he
    refine hhex x hx ?_
    rw [he]
    simp
  intro s t h
  have hdigest : ((table.find? (·.1 = s)).map (·.2)).getD ("#" ++ s) =
    ((table.find? (·.1 = t)).map (·.2)).getD ("#" ++ t) := h
  cases hs : table.find? (·.1 = s) with
  | none =>
    cases ht : table.find? (·.1 = t) with
    | none =>
      rw [hs, ht] at hdigest
      have htexts := congrArg String.toList hdigest
      exact String.toList_inj.mp (by simpa using htexts)
    | some y =>
      rw [hs, ht] at hdigest
      exact absurd hdigest.symm (hoff y (List.mem_of_find?_eq_some ht) s)
  | some x =>
    have hx := List.mem_of_find?_eq_some hs
    cases ht : table.find? (·.1 = t) with
    | none =>
      rw [hs, ht] at hdigest
      exact absurd hdigest (hoff x hx t)
    | some y =>
      rw [hs, ht] at hdigest
      have hy := List.mem_of_find?_eq_some ht
      have hsame : x = y := List.inj_on_of_nodup_map hdistinct hx hy hdigest
      have hxs : x.1 = s := by simpa using List.find?_some hs
      have hyt : y.1 = t := by simpa using List.find?_some ht
      rw [← hxs, ← hyt, hsame]

/-! ## Fields without a separator -/

theorem isUuidText_separated (h : isUuidText p = true) : '|' ∉ p.toList := by
  intro hmem
  obtain ⟨-, hall⟩ := (Bool.and_eq_true _ _).mp h
  obtain ⟨n, hn⟩ := List.mem_iff_getElem?.mp hmem
  have hchar := List.all_eq_true.mp hall ('|', n) (List.mem_zipIdx_iff_getElem?.mpr hn)
  dsimp only at hchar
  split at hchar
  · exact absurd hchar (by decide)
  · exact absurd hchar (by decide)

theorem amount_separated {n : Nat} : '|' ∉ (toString (n : Int)).toList := by
  intro hmem
  have hdigits : (toString (n : Int)).toList = Nat.toDigits 10 n := by
    change (Nat.repr n).toList = _
    simp
  rw [hdigits] at hmem
  exact absurd (Nat.isDigit_of_mem_toDigits (by decide) (by decide) hmem) (by decide)

theorem amount_inj {n m : Nat} (h : toString (n : Int) = toString (m : Int)) : n = m := by
  have hdigits : Nat.toDigits 10 n = Nat.toDigits 10 m := by
    have hrepr : (Nat.repr n).toList = (Nat.repr m).toList := congrArg String.toList h
    simpa using hrepr
  calc n = Nat.ofDigitChars 10 (Nat.toDigits 10 n) 0 := Nat.ofDigitChars_ten_toDigits.symm
    _ = Nat.ofDigitChars 10 (Nat.toDigits 10 m) 0 := by rw [hdigits]
    _ = m := Nat.ofDigitChars_ten_toDigits

theorem reason_separated {reason : CancelReason} : '|' ∉ reason.text.toList := by
  cases reason <;> decide

theorem reason_inj {reason reason' : CancelReason} (h : reason.text = reason'.text) :
    reason = reason' := by
  revert h
  cases reason <;> cases reason' <;> decide

/-! ## What is hashed -/

/-- The fields of a text with bars. -/
theorem toList_text_barred {a b c d : List ℕ} : (Utf.text (barred a b c d)).toList =
    (Utf.text a).toList ++ '|' :: ((Utf.text b).toList ++ '|' :: ((Utf.text c).toList ++
      '|' :: (Utf.text d).toList)) := by
  have hhigh : Utf.isHigh 0x7C = false := rfl
  have hlow : Utf.isLow 0x7C = false := rfl
  simp only [barred, Utf.toList_text_append_cons hhigh hlow, List.append_assoc, List.cons_append]

/-- Two strings that are not the same and are written out as the same text:
where one has an unpaired surrogate, the other has another or U+FFFD. -/
def Blurred (s t : List ℕ) : Prop := s ≠ t ∧ Utf.text s = Utf.text t

/-- Two strings of texts are never blurred. -/
theorem not_blurred_units {s t : String} : ¬ Blurred (Utf.units s) (Utf.units t) := by
  rintro ⟨hne, htext⟩
  rw [Utf.text_units, Utf.text_units] at htext
  exact hne (congrArg _ htext)

/-! ## Equal fingerprints -/

/-- The note of a cancellation as it is hashed. -/
def CancelCommand.noteText (command : CancelCommand) : String :=
  Utf.text (command.note.getD [])

/-- A cancellation whose invoice another's goes on from, with its reason and
more; and its note begins with that, and ends as the other's text does. -/
structure Shifted (command other : CancelCommand) : Prop where
  program : other.programId = command.programId
  fields : ∃ more, other.invoiceId = command.invoiceId ++ "|" ++ command.reason.text ++ more ∧
    "|" ++ command.noteText = more ++ "|" ++ other.reason.text ++ "|" ++ other.noteText

theorem shift_toList {command other : CancelCommand}
    (h : Separated.Shift '|' command.invoiceId.toList command.reason.text.toList
      command.noteText.toList other.invoiceId.toList other.reason.text.toList
      other.noteText.toList) :
    ∃ more, other.invoiceId = command.invoiceId ++ "|" ++ command.reason.text ++ more ∧
      "|" ++ command.noteText = more ++ "|" ++ other.reason.text ++ "|" ++ other.noteText := by
  obtain ⟨more, hinvoice, hnote⟩ := h
  refine ⟨String.ofList more, String.toList_inj.mp ?_, String.toList_inj.mp ?_⟩
  · simp [hinvoice]
  · simp [hnote]

theorem Shifted.shift {command other : CancelCommand} (h : Shifted command other) :
    Separated.Shift '|' command.invoiceId.toList command.reason.text.toList
      command.noteText.toList other.invoiceId.toList other.reason.text.toList
      other.noteText.toList := by
  obtain ⟨more, hinvoice, hnote⟩ := h.fields
  refine ⟨more.toList, ?_, ?_⟩
  · simpa using congrArg String.toList hinvoice
  · simpa using congrArg String.toList hnote

theorem Shifted.invoiceId_ne {command other : CancelCommand} (h : Shifted command other) :
    command.invoiceId ≠ other.invoiceId := fun he => h.shift.ne (by rw [he])

variable [Sha256] {command other : CancelCommand}

/-- Reserves and releases of one fingerprint, whatever hashes it. -/
theorem reserveFingerprint_congr {invoice invoice' : List ℕ} {amount currency : List ℕ}
    {program : List ℕ} (h : Utf.text invoice = Utf.text invoice') :
    reserveFingerprint program invoice amount currency =
      reserveFingerprint program invoice' amount currency := by
  refine congrArg Sha256.digest (String.toList_inj.mp ?_)
  rw [toList_text_barred, toList_text_barred, h]

/-- **A shifted cancellation has the same fingerprint.** -/
theorem Shifted.fingerprint_eq (h : Shifted command other) :
    command.identity.fingerprint = other.identity.fingerprint := by
  have hjoin := h.shift.join_eq
  refine congrArg Sha256.digest (String.toList_inj.mp ?_)
  rw [toList_text_barred, toList_text_barred]
  simp only [Utf.text_units]
  change _ ++ '|' :: (_ ++ '|' :: (_ ++ '|' :: command.noteText.toList)) = _ ++ '|' :: (_ ++ '|' ::
    (_ ++ '|' :: other.noteText.toList))
  rw [h.program, hjoin]

/-- Equal fingerprints of reserves or of releases have equal fields, the
invoice as it is written. -/
theorem reserveFingerprint_inj (hdigest : Function.Injective Sha256.digest) {x y : Int}
    {invoice invoice' : List ℕ} (hp : isUuidText p = true) (hp' : isUuidText p' = true)
    (hx : PositiveMoney x c) (hy : PositiveMoney y c')
    (h : reserveFingerprint (Utf.units p) invoice (Utf.units (toString x)) (Utf.units c) =
      reserveFingerprint (Utf.units p') invoice' (Utf.units (toString y)) (Utf.units c')) :
    p = p' ∧ Utf.text invoice = Utf.text invoice' ∧ x = y ∧ c = c' := by
  obtain ⟨n, rfl⟩ := Int.eq_ofNat_of_zero_le (le_trans (by decide) hx.positive)
  obtain ⟨m, rfl⟩ := Int.eq_ofNat_of_zero_le (le_trans (by decide) hy.positive)
  have htexts := congrArg String.toList (hdigest h)
  simp only [toList_text_barred, Utf.text_units] at htexts
  obtain ⟨hprogram, hinvoice, hamount, hcurrency⟩ := Separated.one_free (isUuidText_separated hp)
    (isUuidText_separated hp') amount_separated amount_separated
    (isCurrencyCode_separated hx.currency (by decide))
    (isCurrencyCode_separated hy.currency (by decide)) htexts
  have hnat := amount_inj (String.toList_inj.mp hamount)
  exact ⟨String.toList_inj.mp hprogram, String.toList_inj.mp hinvoice, by rw [hnat],
    String.toList_inj.mp hcurrency⟩

/-- Equal fingerprints of cancellations have equal fields, the note as it is
hashed, or one is shifted into the other. -/
theorem cancelFingerprint_cases (hdigest : Function.Injective Sha256.digest)
    (hcommand : command.Admitted) (hother : other.Admitted)
    (h : command.identity.fingerprint = other.identity.fingerprint) :
    (command.programId = other.programId ∧ command.invoiceId = other.invoiceId ∧
      command.reason = other.reason ∧ command.noteText = other.noteText) ∨
    Shifted command other ∨ Shifted other command := by
  have htexts := congrArg String.toList (hdigest h)
  rw [toList_text_barred, toList_text_barred] at htexts
  simp only [Utf.text_units] at htexts
  obtain ⟨hprogram, hrest⟩ := Separated.split_first (isUuidText_separated hcommand.programId)
    (isUuidText_separated hother.programId) htexts
  have hprogram := String.toList_inj.mp hprogram
  rcases Separated.two_free reason_separated reason_separated hrest with
    ⟨hinvoice, hreason, hnote⟩ | hshift | hshift
  · exact Or.inl ⟨hprogram, String.toList_inj.mp hinvoice,
      reason_inj (String.toList_inj.mp hreason), String.toList_inj.mp hnote⟩
  · exact Or.inr (Or.inl ⟨hprogram.symm, shift_toList hshift⟩)
  · exact Or.inr (Or.inr ⟨hprogram, shift_toList hshift⟩)

omit [Sha256] in
/-- Two reserves that differ in a blurred invoice and in nothing else. -/
structure ReserveCommand.Confused (command other : ReserveCommand) : Prop where
  programId : command.programId = other.programId
  amountMinor : command.amountMinor = other.amountMinor
  currency : command.currency = other.currency
  invoiceId : Blurred command.invoiceId other.invoiceId

omit [Sha256] in
/-- Two cancellations that differ in a blurred note and in nothing else. -/
structure CancelCommand.NoteConfused (command other : CancelCommand) : Prop where
  programId : command.programId = other.programId
  invoiceId : command.invoiceId = other.invoiceId
  reason : command.reason = other.reason
  note : Blurred (command.note.getD []) (other.note.getD [])

omit [Sha256] in
/-- Two cancellations that are taken for one another. -/
def CancelCommand.Confused (command other : CancelCommand) : Prop :=
  Shifted command other ∨ Shifted other command ∨ command.NoteConfused other

/-- **Reserves of one fingerprint ask for the same** exactly where they are
not confused. -/
theorem ReserveCommand.fingerprint_iff (hdigest : Function.Injective Sha256.digest)
    {command other : ReserveCommand} (hcommand : command.Admitted) (hother : other.Admitted) :
    (command.identity.fingerprint = other.identity.fingerprint →
      command.programId = other.programId ∧ command.invoiceId = other.invoiceId ∧
        command.amountMinor = other.amountMinor ∧ command.currency = other.currency) ↔
    ¬ command.Confused other := by
  constructor
  · intro h hconfused
    have hfingerprint : command.identity.fingerprint = other.identity.fingerprint := by
      unfold ReserveCommand.identity
      rw [hconfused.programId, hconfused.amountMinor, hconfused.currency]
      exact reserveFingerprint_congr hconfused.invoiceId.2
    exact hconfused.invoiceId.1 (h hfingerprint).2.1
  · intro hnot h
    obtain ⟨hp, htext, hn, hc⟩ := reserveFingerprint_inj hdigest hcommand.programId
      hother.programId hcommand.amount hother.amount h
    exact ⟨hp, by_contra fun hi => hnot ⟨hp, hn, hc, hi, htext⟩, hn, hc⟩

/-- **Releases of one fingerprint ask for the same.** -/
theorem ReleaseCommand.fingerprint_inj (hdigest : Function.Injective Sha256.digest)
    {command other : ReleaseCommand} (hcommand : command.Admitted) (hother : other.Admitted)
    (h : command.identity.fingerprint = other.identity.fingerprint) :
    command.programId = other.programId ∧ command.invoiceId = other.invoiceId ∧
      command.releaseMinor = other.releaseMinor ∧ command.currency = other.currency := by
  obtain ⟨hp, htext, hn, hc⟩ := reserveFingerprint_inj hdigest hcommand.programId
    hother.programId hcommand.amount hother.amount h
  rw [Utf.text_units, Utf.text_units] at htext
  exact ⟨hp, htext, hn, hc⟩

/-- **Cancellations of one fingerprint ask for the same** exactly where they
are not confused. -/
theorem CancelCommand.fingerprint_iff (hdigest : Function.Injective Sha256.digest)
    (hcommand : command.Admitted) (hother : other.Admitted) :
    (command.identity.fingerprint = other.identity.fingerprint →
      command.programId = other.programId ∧ command.invoiceId = other.invoiceId ∧
        command.reason = other.reason ∧ command.note.getD [] = other.note.getD []) ↔
    ¬ command.Confused other := by
  constructor
  · rintro h (hshift | hshift | hnote)
    · exact hshift.invoiceId_ne (h hshift.fingerprint_eq).2.1
    · exact hshift.invoiceId_ne (h hshift.fingerprint_eq.symm).2.1.symm
    · have hfingerprint : command.identity.fingerprint = other.identity.fingerprint := by
        refine congrArg Sha256.digest (String.toList_inj.mp ?_)
        rw [toList_text_barred, toList_text_barred, hnote.programId, hnote.invoiceId, hnote.reason,
          hnote.note.2]
      exact hnote.note.1 (h hfingerprint).2.2.2
  · intro hnot h
    rcases cancelFingerprint_cases hdigest hcommand hother h with
      ⟨hp, hi, hreason, htext⟩ | hshift | hshift
    · exact ⟨hp, hi, hreason,
        by_contra fun hnote => hnot (Or.inr (Or.inr ⟨hp, hi, hreason, hnote, htext⟩))⟩
    · exact absurd (Or.inl hshift) hnot
    · exact absurd (Or.inr (Or.inl hshift)) hnot

/-! ## Replays -/

omit [Sha256] in
/-- What a request asks for: the fields of its fingerprint, as strings. -/
inductive RequestContent
  | money (operation : RequestOperation) (programId : String) (invoiceId : List ℕ)
      (amountMinor : Int) (currency : String)
  | cancellation (programId invoiceId : String) (reason : CancelReason) (note : List ℕ)
  deriving DecidableEq

omit [Sha256] in
/-- What a transaction on the request records asks for. -/
def RequestTransaction.content? : RequestTransaction → Option RequestContent
  | .reserve _ command => some (.money .reserve command.programId command.invoiceId
      command.amountMinor command.currency)
  | .release _ command => some (.money .release command.programId (Utf.units command.invoiceId)
      command.releaseMinor command.currency)
  | .cancel _ command => some (.cancellation command.programId command.invoiceId command.reason
      (command.note.getD []))
  | .sweep _ _ => none

omit [Sha256] in
/-- What the controllers let through. -/
def RequestTransaction.Admitted : RequestTransaction → Prop
  | .reserve _ command => command.Admitted
  | .release _ command => command.Admitted
  | .cancel _ command => command.Admitted
  | .sweep _ _ => True

omit [Sha256] in
/-- Two requests that are taken for one another. -/
def RequestTransaction.Confused : RequestTransaction → RequestTransaction → Prop
  | .reserve _ command, .reserve _ other => command.Confused other
  | .cancel _ command, .cancel _ other => command.Confused other
  | _, _ => False

/-- No two requests of one key are taken for one another. -/
def Unconfused (history : List (RequestTransaction × RequestReply)) : Prop :=
  ∀ x ∈ history, ∀ y ∈ history, ∀ q r, x.1.request? = some q → y.1.request? = some r →
    q.identity.key = r.identity.key → ¬ x.1.Confused y.1

/-- **Requests of one operation and one fingerprint ask for the same**, but
for those that are confused. -/
theorem content_eq (hdigest : Function.Injective Sha256.digest) {x y : RequestTransaction}
    {q r : WriteRequest} (hx : x.Admitted) (hy : y.Admitted) (hq : x.request? = some q)
    (hr : y.request? = some r) (hoperation : q.identity.operation = r.identity.operation)
    (hfingerprint : q.identity.fingerprint = r.identity.fingerprint) (hnot : ¬ x.Confused y) :
    x.content? = y.content? := by
  cases x with
  | sweep now days => cases hq
  | reserve rt command =>
    cases hq
    cases y with
    | sweep now days => cases hr
    | release rt' other => cases hr; cases hoperation
    | cancel rt' other => cases hr; cases hoperation
    | reserve rt' other =>
      cases hr
      obtain ⟨hp, hi, hn, hc⟩ :=
        (ReserveCommand.fingerprint_iff hdigest hx hy).mpr hnot hfingerprint
      simp only [RequestTransaction.content?, hp, hi, hn, hc]
  | release rt command =>
    cases hq
    cases y with
    | sweep now days => cases hr
    | reserve rt' other => cases hr; cases hoperation
    | cancel rt' other => cases hr; cases hoperation
    | release rt' other =>
      cases hr
      obtain ⟨hp, hi, hn, hc⟩ := ReleaseCommand.fingerprint_inj hdigest hx hy hfingerprint
      simp only [RequestTransaction.content?, hp, hi, hn, hc]
  | cancel rt command =>
    cases hq
    cases y with
    | sweep now days => cases hr
    | reserve rt' other => cases hr; cases hoperation
    | release rt' other => cases hr; cases hoperation
    | cancel rt' other =>
      cases hr
      obtain ⟨hp, hi, hreason, hnote⟩ :=
        (CancelCommand.fingerprint_iff hdigest hx hy).mpr hnot hfingerprint
      simp only [RequestTransaction.content?, hp, hi, hreason, hnote]

variable {start : Db}
variable {sys : Sys Stmt Db Write Failure RequestReply RequestTransaction Key}

/-- **A replay is of a request that asked for the same.** -/
theorem Requested.replay_content (hdigest : Function.Injective Sha256.digest)
    (hstart : start.requests = []) (h : Requested start sys)
    (hadmitted : ∀ x ∈ sys.history, x.1.Admitted) (hunconfused : Unconfused sys.history)
    {x : RequestTransaction} {q : WriteRequest} {outcome : WriteOutcome}
    (hx : (x, .write outcome) ∈ sys.history) (hq : x.request? = some q)
    (hcreated : outcome.created = false) :
    ∃ first r, (first, .write ⟨true, outcome.body⟩) ∈ sys.history ∧ first.request? = some r ∧
      r.identity.key = q.identity.key ∧ first.content? = x.content? := by
  have hmem : ∀ {y : RequestTransaction} {r : WriteRequest} {o : WriteOutcome},
      y.request? = some r → ((y, .write o) ∈ sys.history) → r.identity.key = q.identity.key →
        (r.identity, o) ∈ requestsOf q.identity.key sys.history := by
    intro y r o hr hy hkey
    exact List.mem_filterMap.mpr ⟨_, hy, by simp [hr, hkey]⟩
  have honce := (exactly_once hstart h).once q.identity.organisationId q.identity.requestId
  have hreplay := hmem hq hx rfl
  unfold Accounted at honce
  cases hrow : sys.committed.request? q.identity.organisationId q.identity.requestId with
  | none =>
    simp only [hrow] at honce
    change requestsOf q.identity.key sys.history = [] at honce
    rw [honce] at hreplay
    cases hreplay
  | some row =>
    simp only [hrow] at honce
    obtain ⟨identity, body, -, replays, hrequests, hreplays⟩ := honce
    change requestsOf q.identity.key sys.history = _ at hrequests
    rw [hrequests] at hreplay
    rcases List.mem_cons.mp hreplay with he | hlater
    · -- the first of them created
      obtain ⟨-, rfl⟩ := Prod.mk.inj he
      cases hcreated
    obtain ⟨houtcome, hoperation, hfingerprint⟩ := hreplays _ hlater
    obtain rfl : outcome = ⟨false, body⟩ := houtcome
    have hfirst : (identity, ⟨true, body⟩) ∈ requestsOf q.identity.key sys.history := by
      rw [hrequests]; exact List.mem_cons_self
    obtain ⟨⟨first, reply⟩, hhistory, he⟩ := List.mem_filterMap.mp hfirst
    cases reply with
    | swept count => cases he
    | write o =>
      obtain ⟨r, hr, he⟩ := Option.map_eq_some_iff.mp he
      obtain ⟨hr, hkey⟩ := Option.filter_eq_some_iff.mp hr
      obtain ⟨rfl, rfl⟩ := Prod.mk.inj he
      have hkey : r.identity.key = q.identity.key := of_decide_eq_true hkey
      exact ⟨first, r, hhistory, hr, hkey,
        content_eq hdigest (hadmitted _ hhistory) (hadmitted _ hx)
        hr hq hoperation.symm hfingerprint.symm (hunconfused _ hhistory _ hx r q hr hq hkey)⟩

/-- **What a fingerprint tells**, where the digest is injective. For two
reserves, and for two cancellations, one fingerprint means the same program,
invoice and whatever else is hashed if and only if they are not confused;
for two releases it always does. And in every interleaving of admitted
requests where none is confused with another of its key, a request that is
answered from a record is answered with the outcome of one that asked for
the same. -/
theorem fingerprint_tells_content (hdigest : Function.Injective Sha256.digest) :
    (∀ command other : ReserveCommand, command.Admitted → other.Admitted →
      ((command.identity.fingerprint = other.identity.fingerprint →
        command.programId = other.programId ∧ command.invoiceId = other.invoiceId ∧
          command.amountMinor = other.amountMinor ∧ command.currency = other.currency) ↔
      ¬ command.Confused other)) ∧
    (∀ command other : ReleaseCommand, command.Admitted → other.Admitted →
      command.identity.fingerprint = other.identity.fingerprint →
        command.programId = other.programId ∧ command.invoiceId = other.invoiceId ∧
          command.releaseMinor = other.releaseMinor ∧ command.currency = other.currency) ∧
    (∀ command other : CancelCommand, command.Admitted → other.Admitted →
      ((command.identity.fingerprint = other.identity.fingerprint →
        command.programId = other.programId ∧ command.invoiceId = other.invoiceId ∧
          command.reason = other.reason ∧ command.note.getD [] = other.note.getD []) ↔
      ¬ command.Confused other)) ∧
    ∀ start sys, start.requests = [] → Requested start sys →
      (∀ x ∈ sys.history, x.1.Admitted) → Unconfused sys.history →
      ∀ x q outcome, (x, .write outcome) ∈ sys.history → RequestTransaction.request? x = some q →
        outcome.created = false →
          ∃ first r, (first, .write ⟨true, outcome.body⟩) ∈ sys.history ∧
            first.request? = some r ∧ r.identity.key = q.identity.key ∧
              first.content? = x.content? := by
  refine ⟨fun command other hc ho => ReserveCommand.fingerprint_iff hdigest hc ho,
    fun command other hc ho h => ReleaseCommand.fingerprint_inj hdigest hc ho h,
    fun command other hc ho => CancelCommand.fingerprint_iff hdigest hc ho,
    fun start sys hstart h hadmitted hunconfused x q outcome hx hq hcreated => ?_⟩
  exact h.replay_content hdigest hstart hadmitted hunconfused hx hq hcreated

end InvoiceReservation

namespace InvoiceReservation

open Transactions

attribute [local instance] trafficSha256

theorem fingerprint_tells_content_reserve :
    (reserveCommand "req-00001" "INV-1" 100).identity.fingerprint ≠
      (reserveCommand "req-00002" "INV-2" 100).identity.fingerprint := by
  have hdigest : Function.Injective Sha256.digest :=
    Sha256.ofTable_injective (by decide +kernel) (by decide +kernel)
  have hfirst : (reserveCommand "req-00001" "INV-1" 100).Admitted :=
    ⟨by decide +kernel, by decide +kernel, by decide +kernel, by decide +kernel⟩
  have hsecond : (reserveCommand "req-00002" "INV-2" 100).Admitted :=
    ⟨by decide +kernel, by decide +kernel, by decide +kernel, by decide +kernel⟩
  have hunconfused :
      ¬ (reserveCommand "req-00001" "INV-1" 100).Confused
          (reserveCommand "req-00002" "INV-2" 100) :=
    fun h => not_blurred_units h.invoiceId
  intro h
  have hsame := (((fingerprint_tells_content hdigest).1 _ _ hfirst hsecond).mpr hunconfused h).2.1
  exact absurd hsame (by decide)

/-- A cancellation, and one of another invoice that it is shifted into. -/
def shiftedCancels : CancelCommand × CancelCommand :=
  (cancelCommand "request-3" "INV-1" (some "x|CANCELLED|y"),
    cancelCommand "request-3" "INV-1|CANCELLED|x" (some "y"))

/-- Two invoices, and the first of the cancellations. -/
def cancelledTraffic : List Operation :=
  reservedTraffic ++
    [.reserve (callAt 2) (reserveCommand "request-2" "INV-1|CANCELLED|x" 100),
      .cancel (callAt 3) shiftedCancels.1]

/-- A reserve, and one of another invoice that is written like it. -/
def blurredReserves : ReserveCommand × ReserveCommand :=
  ({ reserveCommand "req-00004" "" 100 with invoiceId := [0xFFFD] },
    { reserveCommand "req-00004" "" 100 with invoiceId := [0xD800] })

/-- **One invoice's request answers for another's.** Two cancellations of one
key have one fingerprint, and the second is answered with the outcome of the
first and leaves its own invoice active. Two reserves do where an unpaired
surrogate stands in one invoice for U+FFFD in the other. -/
theorem request_answers_for_another :
    (shiftedCancels.1.Admitted ∧ shiftedCancels.2.Admitted ∧
    shiftedCancels.1.identity.fingerprint = shiftedCancels.2.identity.fingerprint ∧
    shiftedCancels.1.invoiceId ≠ shiftedCancels.2.invoiceId ∧
    shiftedCancels.1.note ≠ shiftedCancels.2.note ∧
    ((engine.run (cancel (callAt 4) shiftedCancels.2) (Operation.run cancelledTraffic migrated)
      ).toOption.map fun answer => (answer.1.created, answer.1.body.reservation.invoiceId)) =
        some (false, "INV-1") ∧
    ((Operation.run (cancelledTraffic ++ [.cancel (callAt 4) shiftedCancels.2]) migrated
      ).reservationsOf (Uuid.ofText northwindUsdProgramId)).map
        (fun row => (row.invoiceId, row.status)) =
      [("INV-1", .cancelled), ("INV-1|CANCELLED|x", .active)]) ∧
    blurredReserves.1.Admitted ∧ blurredReserves.2.Admitted ∧
    blurredReserves.1.invoiceId ≠ blurredReserves.2.invoiceId ∧
    ((engine.run (reserve (callAt 2) blurredReserves.2)
      (Operation.run [.seed 0 programs, .reserve (callAt 1) blurredReserves.1] migrated)
      ).toOption.map fun answer => (answer.1.created, answer.1.body.reservation.invoiceId)) =
        some (false, "\uFFFD") := by
  refine ⟨⟨⟨by decide +kernel⟩, ⟨by decide +kernel⟩, ?_, by decide, by decide, ?_, ?_⟩,
    ⟨by decide +kernel, by decide +kernel, by decide +kernel, by decide +kernel⟩,
    ⟨by decide +kernel, by decide +kernel, by decide +kernel, by decide +kernel⟩, by decide, ?_⟩
  · exact Shifted.fingerprint_eq ⟨rfl, "|x", by decide +kernel, by decide +kernel⟩
  · rw [cancelledTraffic, reservedTraffic, List.cons_append, run_seed]
    decide +kernel
  · rw [cancelledTraffic, reservedTraffic, List.cons_append, List.cons_append, run_seed]
    decide +kernel
  · rw [run_seed]
    decide +kernel

end InvoiceReservation
