import InvoiceReservation.Properties.LedgerPages
import InvoiceReservation.Properties.ReservationPages
/-!
# What is taken for a cursor

A listing is to take exactly the cursors, and to refuse every other string.
What it checks is that the decoded bytes are JSON. Whatever else is wrong,
with the value, its properties or the encoding itself, goes on to the
statement: it is answered in the cursor's place, or fails there.
-/

namespace InvoiceReservation

open Paging

variable {db currencyDb rowsDb : Db} {programId cursor : String} {casts : Casts}

/-! ## Cursors -/

/-- The base64url of a text. -/
def base64url (text : String) : String :=
  Utf.text (Base64.encode (Utf.encode (Utf.units text)))

/-- `JSON.parse` of what a string decodes to. -/
def decodedJson (cursor : String) : Option Json :=
  Json.parse (Utf.decode (Base64.decode (Utf.units cursor)))

/-- A cursor that spells a key: base64url of JSON that carries it. -/
def Spells {κ : Type} (carries : Json → κ → Prop) (cursor : String) (key : κ) : Prop :=
  ∃ text value, cursor = base64url text ∧ Json.parse (Utf.units text) = some value ∧
    carries value key

/-- A timestamp and a UUID, as the database casts them. -/
def CarriesReservationKey (casts : Casts) (value : Json) (key : Timestamp × Uuid) : Prop :=
  (readProperty "createdAt" value).bind (castParameter casts.timestamptz) = .ok (some key.1) ∧
    (readProperty "id" value).bind (castParameter casts.uuid) = .ok (some key.2)

/-- A sequence. -/
def CarriesSequence (casts : Casts) (value : Json) (sequence : Int) : Prop :=
  (readProperty "sequence" value).bind (bigintParameter casts.bigint) = .ok (some sequence)

/-- **A listing takes a string for a cursor exactly when it is one**: it is
answered with the rows strictly after the key, or refused. -/
structure AcceptsCursor {κ β : Type} (list : String → Except ReadError (Page String β))
    (spells : String → κ → Prop) (after : κ → List β) (limit : ℕ) (cursor : String) : Prop where
  answered : ∀ key, spells cursor key → ∃ page, list cursor = .ok page ∧
    page.items = (after key).take limit ∧
      (page.nextCursor.isSome = true ↔ limit < (after key).length)
  refused : (∀ key, ¬ spells cursor key) →
    ∃ message, list cursor = .error (.badRequest ⟨"VALIDATION_FAILED", message⟩)

/-- A text is decoded from its base64url. -/
theorem decode_base64url (text : String) :
    Utf.decode (Base64.decode (Utf.units (base64url text))) = Utf.units text := by
  have hbytes := Utf.encode_units_lt text
  rw [base64url, Utf.units_text (Base64.encode_lt hbytes), Base64.decode_encode hbytes,
    Utf.decode_encode_units]

/-- A cursor decodes to what carries its key. -/
theorem decodedJson_of_spells {κ : Type} {carries : Json → κ → Prop} {key : κ}
    (h : Spells carries cursor key) :
    ∃ value, decodedJson cursor = some value ∧ carries value key := by
  obtain ⟨text, value, rfl, hparse, hcarries⟩ := h
  exact ⟨value, by rw [decodedJson, decode_base64url, hparse], hcarries⟩

/-- **What a page names is a cursor**, that of a record. -/
theorem spells_encodeCursor {κ : Type} {carries : Json → κ → Prop} {key : κ}
    {members : List (String × String)}
    (hascii : ∀ m ∈ members, Utf.IsAscii (Utf.units m.1) ∧ Utf.IsAscii (Utf.units m.2))
    (h : carries (Json.record (members.map fun m => (Utf.units m.1, Utf.units m.2))) key) :
    Spells carries (encodeCursor members) key := by
  set value := members.map fun m => (Utf.units m.1, Utf.units m.2) with hvalue
  have hmembers : ∀ m ∈ value, Utf.IsAscii m.1 ∧ Utf.IsAscii m.2 :=
    List.forall_mem_map.mpr hascii
  have htext : Utf.units (Utf.text (Json.stringify value)) = Json.stringify value :=
    Utf.units_text (Json.stringify_ascii hmembers)
  refine ⟨Utf.text (Json.stringify value), Json.record value, ?_, ?_, h⟩
  · rw [base64url, htext, encodeCursor, hvalue]
  · rw [htext, Json.parse_stringify (Json.isUnits_of_ascii hmembers)]

theorem decodeCursor_ok {value : Json} (h : decodedJson cursor = some value) :
    decodeCursor cursor = .ok value := by
  rw [decodedJson] at h
  rw [decodeCursor, h]

theorem decodeCursor_error (h : decodedJson cursor = none) :
    decodeCursor cursor =
      .error (.badRequest ⟨"VALIDATION_FAILED", "The cursor is malformed."⟩) := by
  rw [decodedJson] at h
  rw [decodeCursor, h]

/-- **Where a listing refuses only what is no JSON**, it takes exactly the
cursors of those strings that are cursors or no JSON. -/
theorem acceptsCursor_iff {κ β : Type} {list : String → Except ReadError (Page String β)}
    {carries : Json → κ → Prop} {after : κ → List β} {limit : ℕ}
    (hkey : ∀ value key, decodedJson cursor = some value → carries value key →
      ∃ page, list cursor = .ok page ∧ page.items = (after key).take limit ∧
        (page.nextCursor.isSome = true ↔ limit < (after key).length))
    (hmalformed : decodedJson cursor = none →
      ∃ message, list cursor = .error (.badRequest ⟨"VALIDATION_FAILED", message⟩))
    (hjson : ∀ value body, decodedJson cursor = some value →
      list cursor ≠ .error (.badRequest body)) :
    AcceptsCursor list (Spells carries) after limit cursor ↔
      (∃ key, Spells carries cursor key) ∨ decodedJson cursor = none := by
  constructor
  · intro h
    by_cases hspells : ∃ key, Spells carries cursor key
    · exact Or.inl hspells
    · obtain ⟨message, hrefused⟩ := h.refused fun key hkey => hspells ⟨key, hkey⟩
      refine Or.inr ?_
      cases hvalue : decodedJson cursor with
      | none => rfl
      | some value => exact absurd hrefused (hjson value _ hvalue)
  · rintro (⟨key, hspells⟩ | hnone)
    · refine ⟨fun other hother => ?_, fun hno => absurd hspells (hno key)⟩
      obtain ⟨value, hvalue, hcarries⟩ := decodedJson_of_spells hother
      exact hkey value other hvalue hcarries
    · refine ⟨fun key hspells => ?_, fun _ => hmalformed hnone⟩
      obtain ⟨value, hvalue, -⟩ := decodedJson_of_spells hspells
      rw [hvalue] at hnone
      cases hnone

/-! ## Errors on the way to the statement -/

theorem bind_ne_badRequest {α β : Type} {x : Except ReadError α} {f : α → Except ReadError β}
    {body : BadRequest} (hx : x ≠ .error (.badRequest body))
    (hf : ∀ a, f a ≠ .error (.badRequest body)) : x >>= f ≠ .error (.badRequest body) := by
  cases x with
  | error error =>
    intro h
    exact hx (by simpa [bind, Except.bind] using h)
  | ok a => exact hf a

theorem readProperty_ne_badRequest {name : String} {value : Json} {body : BadRequest} :
    readProperty name value ≠ .error (.badRequest body) := by
  cases value <;> simp [readProperty]

theorem castParameter_ne_badRequest {α : Type} {cast : Json → Except SqlError (Option α)}
    {value : Option Json} {body : BadRequest} :
    castParameter cast value ≠ .error (.badRequest body) := by
  unfold castParameter
  split
  · simp
  · simp
  · rename_i value _
    cases cast value <;> simp [Except.mapError]

theorem bigintParameter_ne_badRequest {other : Json → Except SqlError (Option Int)}
    {value : Option Json} {body : BadRequest} :
    bigintParameter other value ≠ .error (.badRequest body) := by
  have hother : ∀ json : Json, (other json).mapError (fun error => ReadError.failed (.sql error)) ≠
      .error (.badRequest body) := by
    intro json
    cases other json <;> simp [Except.mapError]
  unfold bigintParameter
  split
  · simp
  · simp
  · split
    · split <;> simp
    · exact hother _
  · exact hother _

/-! ## The listings -/

/-- The rows strictly after a key, in the order of their listing. -/
def rowsAfter {α ι : Type*} [LinearOrder ι] (key : α → ι) (last : ι) (rows : List α) : List α :=
  descending key (rows.filter (key · < last))

/-- The page of a statement under a cursor is one of the rows after it. -/
theorem page_select {α β ι κ : Type*} [LinearOrder ι] {key : α → ι} {last : ι} {limit : ℕ}
    {rows : List α} {encode : α → κ} {body : α → β} (hlimit : 1 ≤ limit) :
    (page limit encode body (select key (some last) limit rows)).items =
        ((rowsAfter key last rows).map body).take limit ∧
      ((page limit encode body (select key (some last) limit rows)).nextCursor.isSome = true ↔
        limit < ((rowsAfter key last rows).map body).length) := by
  have hrows : rows.filter (isBelow key (some last)) = rows.filter (key · < last) :=
    List.filter_congr fun row _ => by simp [isBelow]
  rw [select, hrows, ← List.map_take, List.length_map]
  exact page_take hlimit

/-- A page of reservations under a cursor. -/
def reservationsUnder (casts : Casts) (db : Db) (programId : String)
    (status : Option ReservationStatus) (limit : Option ℕ) (cursor : String) :
    Except ReadError (Page String ReservationBody) :=
  reservationRequest casts db programId status (fun _ => limit) 0 (some cursor)

/-- A page of the ledger under a cursor. -/
def ledgerUnder (casts : Casts) (currencyDb rowsDb : Db) (programId : String)
    (filter : ListLedgerQuery) (limit : Option ℕ) (cursor : String) :
    Except ReadError (Page String LedgerEntryBody) :=
  listLedger casts.bigint currencyDb rowsDb programId
    { filter with cursor := some cursor, limit := limit.map fun n : ℕ => .finite n }

/-- A cursor that decodes is not refused for what its JSON is. -/
theorem reservations_below_ne_badRequest {query : ListReservationsQuery} {value : Json}
    {body : BadRequest} (hcursor : query.cursor = some cursor)
    (h : decodedJson cursor = some value) :
    query.below casts ≠ .error (.badRequest body) := by
  unfold ListReservationsQuery.below
  simp only [hcursor, decodeCursor_ok h]
  refine bind_ne_badRequest (by simp) fun value' => ?_
  refine bind_ne_badRequest readProperty_ne_badRequest fun createdAt => ?_
  refine bind_ne_badRequest readProperty_ne_badRequest fun id => ?_
  refine bind_ne_badRequest castParameter_ne_badRequest fun belowCreatedAt => ?_
  exact bind_ne_badRequest castParameter_ne_badRequest fun belowId => by simp [pure, Except.pure]

/-- What carries a key is read as it. -/
theorem reservations_below_ok {query : ListReservationsQuery} {value : Json}
    {key : Timestamp × Uuid}
    (hcursor : query.cursor = some cursor) (h : decodedJson cursor = some value)
    (hcarries : CarriesReservationKey casts value key) :
    query.below casts = .ok (some (some key.1, some key.2)) := by
  obtain ⟨hcreatedAt, hid⟩ := hcarries
  unfold ListReservationsQuery.below
  simp only [hcursor, decodeCursor_ok h, bind, Except.bind]
  cases hc : readProperty "createdAt" value with
  | error error => simp [hc, Except.bind] at hcreatedAt
  | ok createdAt =>
    cases hi : readProperty "id" value with
    | error error => simp [hi, Except.bind] at hid
    | ok id =>
      rw [hc, Except.bind] at hcreatedAt
      rw [hi, Except.bind] at hid
      simp only [hcreatedAt, hid, pure, Except.pure]

theorem reservations_accept_iff {status : Option ReservationStatus} {limit : Option ℕ}
    (hlimit : ∀ n ∈ limit, 1 ≤ n ∧ n ≤ reservationMaxLimit) :
    AcceptsCursor (reservationsUnder casts db programId status limit)
        (Spells (CarriesReservationKey casts))
        (fun key => (rowsAfter reservationKey (toLex (key.1, key.2.toNat))
          (listedReservations db programId status)).map toListedBody)
        (limit.getD reservationDefaultLimit) cursor ↔
      (∃ key, Spells (CarriesReservationKey casts) cursor key) ∨ decodedJson cursor = none := by
  refine acceptsCursor_iff (fun value key hvalue hcarries => ?_) (fun hnone => ?_)
    (fun value body hvalue => ?_)
  · have hbelow := @reservations_below_ok cursor casts { status := status, cursor := some cursor }
      value key rfl hvalue hcarries
    exact ⟨_, reservationRequest_page (fun _ => hlimit) hbelow,
      page_select (one_le_getD (by decide) hlimit)⟩
  · refine ⟨"The cursor is malformed.", ?_⟩
    simp only [reservationsUnder, reservationRequest, listReservations, boundLimit_ok hlimit,
      ListReservationsQuery.below, decodeCursor_error hnone, bind, Except.bind]
  · unfold reservationsUnder reservationRequest listReservations
    rw [boundLimit_ok hlimit]
    refine bind_ne_badRequest (by simp) fun bound => ?_
    exact bind_ne_badRequest (reservations_below_ne_badRequest rfl hvalue) fun below => by
      simp [pure, Except.pure]

/-- A cursor that decodes is not refused for what its JSON is. -/
theorem ledger_sequence_ne_badRequest {query : ListLedgerQuery} {value : Json} {body : BadRequest}
    (hcursor : query.cursor = some cursor) (h : decodedJson cursor = some value) :
    query.sequence ≠ .error (.badRequest body) := by
  unfold ListLedgerQuery.sequence
  simp only [hcursor, decodeCursor_ok h]
  refine bind_ne_badRequest (by simp) fun value' => ?_
  exact bind_ne_badRequest readProperty_ne_badRequest fun sequence => by simp [pure, Except.pure]

/-- Nor does the statement refuse a query. -/
theorem ledger_below_ne_badRequest {other : Json → Except SqlError (Option Int)}
    {query : ListLedgerQuery} {sequence : Option (Option Json)} {body : BadRequest}
    (hdates : query.Dated) : query.below other sequence ≠ .error (.badRequest body) := by
  cases sequence with
  | none => simp [below_none hdates]
  | some sequence =>
    rw [below_some hdates]
    have hparameter := @bigintParameter_ne_badRequest other sequence body
    cases hp : bigintParameter other sequence with
    | ok n => simp [Except.map]
    | error error =>
      rw [hp] at hparameter
      simpa [Except.map] using hparameter

/-- What carries a sequence is read as it. -/
theorem ledger_below_ok {query : ListLedgerQuery} {value : Json} {sequence : Int}
    (hdates : query.Dated) (hcursor : query.cursor = some cursor)
    (h : decodedJson cursor = some value) (hcarries : CarriesSequence casts value sequence) :
    query.sequence >>= query.below casts.bigint = .ok (some (some sequence)) := by
  cases hs : readProperty "sequence" value with
  | error error => simp [CarriesSequence, hs, Except.bind] at hcarries
  | ok json =>
    rw [CarriesSequence, hs, Except.bind] at hcarries
    have hsequence : query.sequence = .ok (some json) := by
      unfold ListLedgerQuery.sequence
      simp only [hcursor, decodeCursor_ok h, bind, Except.bind, hs, pure, Except.pure]
    rw [hsequence]
    exact (below_some hdates).trans (by rw [hcarries]; rfl)

theorem ledger_accepts_iff {program : ProgramEntity} {filter : ListLedgerQuery} {limit : Option ℕ}
    (hprogram : currencyDb.program? (Uuid.ofText programId) = some program)
    (hdates : filter.Dated) (hlimit : ∀ n ∈ limit, 1 ≤ n ∧ n ≤ ledgerMaxLimit) :
    AcceptsCursor (ledgerUnder casts currencyDb rowsDb programId filter limit)
        (Spells (CarriesSequence casts))
        (fun sequence => (rowsAfter (·.sequence) sequence ((rowsDb.ledgerOf
          (Uuid.ofText programId)).filter filter.selects)).map (toLedgerEntryBody program.currency))
        (limit.getD ledgerDefaultLimit) cursor ↔
      (∃ sequence, Spells (CarriesSequence casts) cursor sequence) ∨ decodedJson cursor = none := by
  have hcurrency : programCurrency programId currencyDb = .ok program.currency := by
    rw [programCurrency, hprogram]
  refine acceptsCursor_iff (fun value sequence hvalue hcarries => ?_) (fun hnone => ?_)
    (fun value body hvalue => ?_)
  · have hbelow := @ledger_below_ok cursor casts
      { filter with cursor := some cursor, limit := limit.map fun n : ℕ => .finite n } value
      sequence hdates rfl hvalue hcarries
    exact ⟨_, listLedger_page (boundLimit_ok hlimit) hcurrency hbelow,
      page_select (one_le_getD (by decide) hlimit)⟩
  · refine ⟨"The cursor is malformed.", ?_⟩
    simp only [ledgerUnder, listLedger, boundLimit_ok hlimit, hcurrency, ListLedgerQuery.sequence,
      decodeCursor_error hnone, bind, Except.bind]
  · unfold ledgerUnder listLedger
    rw [boundLimit_ok hlimit, hcurrency]
    refine bind_ne_badRequest (by simp) fun bound => bind_ne_badRequest (by simp) fun currency => ?_
    refine bind_ne_badRequest (ledger_sequence_ne_badRequest rfl hvalue) fun sequence => ?_
    exact bind_ne_badRequest (ledger_below_ne_badRequest hdates) fun below => by
      simp [pure, Except.pure]

/-- **A string is taken for a cursor exactly when it is one, of those that are
cursors or no JSON.** A cursor is answered with the rows strictly after its
key, and what is no JSON is refused; any other string is neither. The ledger
is asked for dates that can be sent. -/
theorem cursors_accepted_iff {program : ProgramEntity}
    (hprogram : currencyDb.program? (Uuid.ofText programId) = some program) (casts : Casts) :
    (∀ (status : Option ReservationStatus) (limit : Option ℕ),
      (∀ n ∈ limit, 1 ≤ n ∧ n ≤ reservationMaxLimit) → ∀ cursor,
        AcceptsCursor (reservationsUnder casts rowsDb programId status limit)
            (Spells (CarriesReservationKey casts))
            (fun key => (rowsAfter reservationKey (toLex (key.1, key.2.toNat))
              (listedReservations rowsDb programId status)).map toListedBody)
            (limit.getD reservationDefaultLimit) cursor ↔
          (∃ key, Spells (CarriesReservationKey casts) cursor key) ∨ decodedJson cursor = none) ∧
    ∀ (filter : ListLedgerQuery) (limit : Option ℕ), filter.Dated →
      (∀ n ∈ limit, 1 ≤ n ∧ n ≤ ledgerMaxLimit) → ∀ cursor,
        AcceptsCursor (ledgerUnder casts currencyDb rowsDb programId filter limit)
            (Spells (CarriesSequence casts))
            (fun sequence => (rowsAfter (·.sequence) sequence ((rowsDb.ledgerOf
              (Uuid.ofText programId)).filter filter.selects)).map
                (toLedgerEntryBody program.currency))
            (limit.getD ledgerDefaultLimit) cursor ↔
          (∃ sequence, Spells (CarriesSequence casts) cursor sequence) ∨
            decodedJson cursor = none :=
  ⟨fun _ _ hlimit _ => reservations_accept_iff hlimit,
    fun _ _ hdates hlimit _ => ledger_accepts_iff hprogram hdates hlimit⟩

end InvoiceReservation

namespace InvoiceReservation

open Paging

attribute [local instance] trafficSha256

/-- The base64url of `null` fails as no refusal does, and that of an empty
object is answered with an empty last page. -/
theorem null_cursor_fails :
    ¬ AcceptsCursor
      (reservationsUnder tiedCasts (Operation.run tiedTraffic migrated) northwindUsdProgramId none
        none)
      (Spells (CarriesReservationKey tiedCasts))
      (fun key => (rowsAfter reservationKey (toLex (key.1, key.2.toNat))
        (listedReservations (Operation.run tiedTraffic migrated) northwindUsdProgramId none)).map
          toListedBody)
      reservationDefaultLimit "bnVsbA" ∧
    reservationsUnder tiedCasts (Operation.run tiedTraffic migrated) northwindUsdProgramId none none
      "e30" = .ok ⟨none, []⟩ := by
  have hnull : reservationsUnder tiedCasts (Operation.run tiedTraffic migrated)
      northwindUsdProgramId none none "bnVsbA" =
        .error (.failed (.typeError ⟨"Cannot read properties of null (reading 'createdAt')"⟩)) := by
    rw [tiedTraffic, run_seed]
    decide +kernel
  have hempty : reservationsUnder tiedCasts (Operation.run tiedTraffic migrated)
      northwindUsdProgramId none none "e30" = .ok ⟨none, []⟩ := by
    rw [tiedTraffic, run_seed]
    decide +kernel
  refine ⟨fun haccepts => ?_, hempty⟩
  by_cases hspells : ∃ key, Spells (CarriesReservationKey tiedCasts) "bnVsbA" key
  · obtain ⟨key, hkey⟩ := hspells
    obtain ⟨page, hpage, -⟩ := haccepts.answered key hkey
    rw [hnull] at hpage
    cases hpage
  · obtain ⟨message, hrefused⟩ := haccepts.refused fun key hkey => hspells ⟨key, hkey⟩
    rw [hnull] at hrefused
    cases hrefused

theorem cursors_accepted_iff_tied :
    let db := Operation.run tiedTraffic migrated
    (∃ page, ledgerUnder tiedCasts db db northwindUsdProgramId {} (some 1)
      (encodeCursor [("sequence", "3")]) = .ok page ∧ page.items.length = 1) ∧
    ∃ message, reservationsUnder tiedCasts db northwindUsdProgramId none none "%" =
      .error (.badRequest ⟨"VALIDATION_FAILED", message⟩) := by
  obtain ⟨program, hprogram⟩ : ∃ program, (Operation.run tiedTraffic migrated).program?
      (Uuid.ofText northwindUsdProgramId) = some program :=
    Option.isSome_iff_exists.mp <| by
      rw [tiedTraffic, run_seed]
      decide +kernel
  have haccepted := @cursors_accepted_iff (Operation.run tiedTraffic migrated)
    (Operation.run tiedTraffic migrated) northwindUsdProgramId program hprogram tiedCasts
  have hone : ∀ n ∈ some 1, 1 ≤ n ∧ n ≤ ledgerMaxLimit := by
    rintro n ⟨⟩
    decide
  have hspells : Spells (CarriesSequence tiedCasts) (encodeCursor [("sequence", "3")]) 3 := by
    refine spells_encodeCursor ?_ ?_
    · unfold Utf.IsAscii
      decide
    · show _ = _
      decide +kernel
  have hmalformed : decodedJson "%" = none := Option.isNone_iff_eq_none.mp (by decide +kernel)
  constructor
  · obtain ⟨page, hpage, hitems, -⟩ :=
      ((haccepted.2 {} (some 1) (List.forall_mem_nil _) hone _).mpr
        (Or.inl ⟨3, hspells⟩)).answered 3 hspells
    refine ⟨page, hpage, ?_⟩
    rw [hitems, List.length_take, List.length_map, rowsAfter, descending_perm.length_eq,
      tiedTraffic, run_seed]
    decide +kernel
  · refine ((haccepted.1 none none (by simp) _).mpr (Or.inr hmalformed)).refused fun key hkey => ?_
    obtain ⟨value, hvalue, -⟩ := decodedJson_of_spells hkey
    rw [hmalformed] at hvalue
    cases hvalue

end InvoiceReservation
