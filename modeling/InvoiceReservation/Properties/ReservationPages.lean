import InvoiceReservation.Helpers.Cursors
import InvoiceReservation.Helpers.Organisations
import InvoiceReservation.Model.Seed
/-!
# Reservations a page at a time

Reservations are listed by `(created_at, id)`, and a cursor spells out the
key of a row. Two rows never share an id, so however many were created at
one instant, following the cursors gives each of them once.
-/

namespace InvoiceReservation

open Paging

variable {db : Db} {programId : String} {casts : Casts} {row : InvoiceReservationEntity}
variable {query : ListReservationsQuery} {status : Option ReservationStatus}

/-! ## The cursor of a row -/

/-- The database reads back what it wrote of a row's key: the six fractional
digits of `to_char`, and a UUID in its own spelling. -/
structure Casts.ReadsBack (casts : Casts) (row : InvoiceReservationEntity) : Prop where
  ascii : Utf.IsAscii (Utf.units (casts.toChar row.createdAt))
  createdAt : casts.timestamptz (.string (Utf.units (casts.toChar row.createdAt))) =
    .ok (some row.createdAt)
  id : casts.uuid (.string (Utf.units row.id.text)) = .ok (some row.id)

theorem toDigits_hex_lt (n : ℕ) : ∀ c ∈ Nat.toDigits 16 n, c.toNat < 0x80 := by
  have hdigit : ∀ d < 16, (Nat.digitChar d).toNat < 0x80 := by decide
  induction n using Nat.strong_induction_on with
  | _ n ih =>
    intro c hc
    by_cases hn : n < 16
    · rw [Nat.toDigits_of_lt_base hn, List.mem_singleton] at hc
      rw [hc]
      exact hdigit n hn
    · rw [Nat.toDigits_of_base_le (by omega) (by omega), List.mem_append, List.mem_singleton] at hc
      rcases hc with hc | rfl
      · exact ih (n / 16) (by omega) c hc
      · exact hdigit _ (by omega)

/-- A UUID's text is ASCII. -/
theorem text_ascii (id : Uuid) : Utf.IsAscii (Utf.units id.text) := by
  refine Utf.units_isAscii fun c hc => ?_
  unfold Uuid.text at hc
  rw [String.toList_ofList] at hc
  generalize hall : List.replicate (32 - (Nat.toDigits 16 id.toNat).length) '0' ++
    Nat.toDigits 16 id.toNat = all at hc
  have hlow : ∀ d ∈ all, d.toNat < 0x80 := by
    intro d hd
    rw [← hall, List.mem_append] at hd
    rcases hd with hzero | hdigit
    · rw [List.eq_of_mem_replicate hzero]
      decide
    · exact toDigits_hex_lt _ d hdigit
  have hdash : '-'.toNat < 0x80 := by decide
  simp only [List.mem_append, List.mem_cons] at hc
  -- a group of digits, or the dash before it
  rcases hc with (((hc | rfl | hc) | rfl | hc) | rfl | hc) | rfl | hc
  · exact hlow c (List.mem_of_mem_take hc)
  · exact hdash
  · exact hlow c (List.mem_of_mem_drop (List.mem_of_mem_take hc))
  · exact hdash
  · exact hlow c (List.mem_of_mem_drop (List.mem_of_mem_take hc))
  · exact hdash
  · exact hlow c (List.mem_of_mem_drop (List.mem_of_mem_take hc))
  · exact hdash
  · exact hlow c (List.mem_of_mem_drop hc)

/-- **A row's cursor lies at its key.** -/
theorem below_reservationCursor (h : casts.ReadsBack row)
    (hcursor : query.cursor = some (reservationCursor casts row)) :
    query.below casts = .ok (some (some row.createdAt, some row.id)) := by
  have hnames : Utf.IsAscii (Utf.units "createdAt") ∧ Utf.IsAscii (Utf.units "id") := by
    unfold Utf.IsAscii
    decide
  have hdecoded := @decodeCursor_encodeCursor
    [("createdAt", casts.toChar row.createdAt), ("id", row.id.text)] (by
      simpa using ⟨⟨hnames.1, h.ascii⟩, hnames.2, text_ascii row.id⟩)
  have hcreatedAt : readProperty "createdAt" (Json.record
      [(Utf.units "createdAt", Utf.units (casts.toChar row.createdAt)),
        (Utf.units "id", Utf.units row.id.text)]) =
      .ok (some (.string (Utf.units (casts.toChar row.createdAt)))) := by
    have hne : Utf.units "id" ≠ Utf.units "createdAt" := by decide
    simp [Json.record, readProperty, Json.member?, hne]
  have hid : readProperty "id" (Json.record
      [(Utf.units "createdAt", Utf.units (casts.toChar row.createdAt)),
        (Utf.units "id", Utf.units row.id.text)]) =
      .ok (some (.string (Utf.units row.id.text))) := by
    simp [Json.record, readProperty, Json.member?]
  unfold ListReservationsQuery.below
  simp only [hcursor, reservationCursor, hdecoded, List.map_cons, List.map_nil, bind, Except.bind,
    hcreatedAt, hid, castParameter, h.createdAt, h.id, Except.mapError, pure, Except.pure]

/-! ## Following the cursors -/

/-- The `k`-th request for the reservations of a status, or of all. -/
def reservationRequest (casts : Casts) (db : Db) (programId : String)
    (status : Option ReservationStatus) (limit : ℕ → Option ℕ) (k : ℕ) (cursor : Option String) :
    Except ReadError (Page String ReservationBody) :=
  listReservations casts programId
    { status := status, cursor := cursor, limit := (limit k).map fun n : ℕ => .finite n } db

/-- The reservations that a listing is of. -/
def listedReservations (db : Db) (programId : String) (status : Option ReservationStatus) :
    List InvoiceReservationEntity :=
  (db.reservationsOf (Uuid.ofText programId)).filter fun row => status.all (row.status = ·)

/-- A row as an item of a page. -/
def toListedBody (row : InvoiceReservationEntity) : ReservationBody :=
  toReservationBody (toInvoiceReservationEntity row)

/-- A request that comes to its rows is answered with their page. -/
theorem reservationRequest_page {limit : ℕ → Option ℕ}
    (hlimit : ∀ k, ∀ n ∈ limit k, 1 ≤ n ∧ n ≤ reservationMaxLimit) {k : ℕ} {cursor : Option String}
    {below : Option (Option Timestamp × Option Uuid)}
    (hbelow :
      ListReservationsQuery.below casts { status := status, cursor := cursor } = .ok below) :
    reservationRequest casts db programId status limit k cursor =
      .ok (page ((limit k).getD reservationDefaultLimit) (reservationCursor casts) toListedBody
        (selectReservations programId { status := status } below
          ((limit k).getD reservationDefaultLimit) db)) := by
  have hsame : ListReservationsQuery.below casts
      { status := status, cursor := cursor, limit := (limit k).map fun n : ℕ => .finite n } =
        .ok below := hbelow
  simp only [reservationRequest, listReservations, boundLimit_ok (hlimit k), hsame, bind,
    Except.bind, pure, Except.pure]
  rfl

/-- Whatever the cursor, a page holds rows of the listing. -/
theorem mem_listed_of_mem_select {limit : ℕ} {below : Option (Option Timestamp × Option Uuid)}
    (h : row ∈ selectReservations programId { status := status } below limit db) :
    row ∈ listedReservations db programId status := by
  have hselect : ∀ {cursor rows}, row ∈ select reservationKey cursor limit rows → row ∈ rows := by
    intro cursor rows hrow
    exact (List.mem_filter.mp (descending_perm.mem_iff.mp (List.mem_of_mem_take hrow))).1
  unfold selectReservations at h
  rcases below with _ | ⟨_ | createdAt, _ | id⟩
  · exact hselect h
  · exact absurd h List.not_mem_nil
  · exact absurd h List.not_mem_nil
  · exact (List.mem_filter.mp (hselect h)).1
  · exact hselect h

/-- A key, spelled out. -/
def encodeKey (casts : Casts) (key : Timestamp ×ₗ ℕ) : String :=
  encodeCursor [("createdAt", casts.toChar (ofLex key).1),
    ("id", Uuid.text (BitVec.ofNat 128 (ofLex key).2))]

theorem encodeKey_reservationKey :
    encodeKey casts (reservationKey row) = reservationCursor casts row := by
  simp [encodeKey, reservationKey, reservationCursor]

/-- Rows with ids of their own have keys of their own. -/
theorem reservationKey_nodup {rows : List InvoiceReservationEntity}
    (hids : (rows.map (·.id)).Nodup) : (rows.map reservationKey).Nodup := by
  rw [List.Nodup, List.pairwise_map] at hids ⊢
  refine hids.imp fun hne hkey => hne ?_
  exact BitVec.eq_of_toNat_eq (congrArg (fun key => (ofLex key).2) hkey)

/-- **Reservations are paged completely, ties and all.** Over rows that stay,
under any status and whatever the limits of the pages, following the
cursors ends and gives every reservation once, in descending order of its
key; and each cursor is read back as the key of the last row of its page. -/
theorem reservation_pages_complete
    (hids : ((db.reservationsOf (Uuid.ofText programId)).map (·.id)).Nodup)
    (hcasts : ∀ row ∈ db.reservationsOf (Uuid.ofText programId), casts.ReadsBack row)
    (status : Option ReservationStatus) {limit : ℕ → Option ℕ}
    (hlimit : ∀ k, ∀ n ∈ limit k, 1 ≤ n ∧ n ≤ reservationMaxLimit) :
    ∃ rows : List InvoiceReservationEntity,
      rows.Perm (listedReservations db programId status) ∧
      rows.Pairwise (fun x y => reservationKey y < reservationKey x) ∧
      (∀ items, Follows (reservationRequest casts db programId status limit) 0 none items ↔
        items = rows.map toListedBody) ∧
      ∀ k cursor next items,
        reservationRequest casts db programId status limit k cursor = .ok ⟨some next, items⟩ →
          ∃ last ∈ rows, items.getLast? = some (toListedBody last) ∧
            ListReservationsQuery.below casts { cursor := some next } =
              .ok (some (some last.createdAt, some last.id)) := by
  have hkeys : ((listedReservations db programId status).map reservationKey).Nodup :=
    reservationKey_nodup (hids.sublist (List.filter_sublist.map _))
  have hone : ∀ k, 1 ≤ (limit k).getD reservationDefaultLimit := fun k =>
    one_le_getD (by decide) (hlimit k)
  have htold : ∀ row ∈ listedReservations db programId status, casts.ReadsBack row :=
    fun row hrow => hcasts row (List.mem_filter.mp hrow).1
  -- each request is a page of the rows below the key its cursor spells
  have hread : Pages casts.ReadsBack reservationKey (encodeKey casts) toListedBody
      (fun k => (limit k).getD reservationDefaultLimit)
      (fun _ => listedReservations db programId status)
      (reservationRequest casts db programId status limit) := by
    intro k cursor hcursor
    have hcursors : encodeKey casts ∘ reservationKey = reservationCursor casts :=
      funext fun row => encodeKey_reservationKey
    cases cursor with
    | none =>
      have hbelow : ListReservationsQuery.below casts { status := status, cursor := none } =
        .ok none := rfl
      rw [hcursors]
      exact reservationRequest_page hlimit hbelow
    | some key =>
      obtain ⟨row, -, hrow, rfl⟩ := hcursor key rfl
      rw [hcursors, Option.map_some, encodeKey_reservationKey]
      exact reservationRequest_page hlimit (below_reservationCursor hrow rfl)
  refine ⟨descending reservationKey (listedReservations db programId status), descending_perm,
    descending_descends hkeys, fun items => follows_fixed_iff hkeys hone hread htold, ?_⟩
  intro k cursor next items hpage
  cases hbelow : ListReservationsQuery.below casts { status := status, cursor := cursor } with
  | error error =>
    have hsame : ListReservationsQuery.below casts
        { status := status, cursor := cursor, limit := (limit k).map fun n : ℕ => .finite n } =
          .error error := hbelow
    simp only [reservationRequest, listReservations, boundLimit_ok (hlimit k), hsame, bind,
      Except.bind, reduceCtorEq] at hpage
  | ok below =>
    rw [reservationRequest_page hlimit hbelow, Except.ok.injEq] at hpage
    obtain ⟨last, hlast, rfl, hitems⟩ := page_next hpage
    have hmem := mem_listed_of_mem_select hlast
    exact ⟨last, descending_perm.mem_iff.mpr hmem, hitems,
      below_reservationCursor (htold last hmem) rfl⟩

end InvoiceReservation

namespace InvoiceReservation

open Paging

attribute [local instance] trafficSha256

/-- A call of the first millisecond, with an id of its own. -/
def reserveAt (id : Uuid) (requestId invoiceId : String) : Operation :=
  .reserve { callAt 1 with generatedId := id } (reserveCommand requestId invoiceId 100)

/-- Three reservations of one instant. -/
def tiedTraffic : List Operation :=
  [.seed 0 programs, reserveAt 7 "req-00001" "INV-1", reserveAt 9 "req-00002" "INV-2",
    reserveAt 8 "req-00003" "INV-3"]

/-- The database's casts, of that instant and of the UUIDs it writes itself. -/
def tiedCasts : Casts where
  bigint _ := .error ⟨"22P02", "invalid input syntax for type bigint"⟩
  timestamptz
    | .string text =>
      if text = Utf.units "1970-01-01T00:00:00.001000Z" then .ok (some 1000)
      else .error ⟨"22007", "invalid input syntax for type timestamp with time zone"⟩
    | _ => .error ⟨"22007", "invalid input syntax for type timestamp with time zone"⟩
  uuid
    | .string text =>
      if Utf.units (Uuid.ofText (Utf.text text)).text = text then
        .ok (some (Uuid.ofText (Utf.text text)))
      else .error ⟨"22P02", "invalid input syntax for type uuid"⟩
    | _ => .error ⟨"22P02", "invalid input syntax for type uuid"⟩
  toChar t := "1970-01-01T00:00:00." ++ padStart 6 t.toNat ++ "Z"

theorem reservation_pages_complete_tied :
    ∃ rows : List InvoiceReservationEntity,
      rows.Perm (listedReservations (Operation.run tiedTraffic migrated) northwindUsdProgramId
        none) ∧
      (listedReservations (Operation.run tiedTraffic migrated) northwindUsdProgramId none).map
        (fun row => (row.createdAt, row.invoiceId)) =
          [(1000, "INV-1"), (1000, "INV-2"), (1000, "INV-3")] ∧
      rows.Pairwise (fun x y => reservationKey y < reservationKey x) ∧
      ∀ items, Follows (reservationRequest tiedCasts (Operation.run tiedTraffic migrated)
        northwindUsdProgramId none fun _ => some 2) 0 none items ↔
          items = rows.map toListedBody := by
  have hlimit : ∀ (_ : ℕ), ∀ n ∈ some 2, 1 ≤ n ∧ n ≤ reservationMaxLimit := by
    rintro _ n ⟨⟩
    unfold reservationMaxLimit
    omega
  have hids : (((Operation.run tiedTraffic migrated).reservationsOf
      (Uuid.ofText northwindUsdProgramId)).map (·.id)).Nodup := by
    rw [tiedTraffic, run_seed]
    decide +kernel
  have hcasts : ∀ row ∈ (Operation.run tiedTraffic migrated).reservationsOf
      (Uuid.ofText northwindUsdProgramId), tiedCasts.ReadsBack row := by
    have hall : ∀ row ∈ (Operation.run tiedTraffic migrated).reservationsOf
        (Uuid.ofText northwindUsdProgramId),
        (∀ unit ∈ Utf.units (tiedCasts.toChar row.createdAt), unit < 0x80) ∧
        tiedCasts.timestamptz (.string (Utf.units (tiedCasts.toChar row.createdAt))) =
          .ok (some row.createdAt) ∧
        tiedCasts.uuid (.string (Utf.units row.id.text)) = .ok (some row.id) := by
      rw [tiedTraffic, run_seed]
      decide +kernel
    intro row hrow
    obtain ⟨hascii, hcreatedAt, hid⟩ := hall row hrow
    exact ⟨hascii, hcreatedAt, hid⟩
  obtain ⟨rows, hperm, hdescends, hfollows, -⟩ :=
    @reservation_pages_complete _ _ _ hids hcasts none (fun _ => some 2) hlimit
  refine ⟨rows, hperm, ?_, hdescends, hfollows⟩
  rw [tiedTraffic, run_seed]
  decide +kernel

end InvoiceReservation
