import InvoiceReservation.Helpers.Conversions
import InvoiceReservation.Model.Audit
/-!
# Cursors

A cursor is read as it was written, and that of a row names the sequence
of the row.
-/

namespace InvoiceReservation

/-! ## Digits as units -/

/-- The units of a natural number's text are its digits. -/
theorem units_natText (n : ℕ) :
    Utf.units (toString (n : Int)) = (Nat.toDigits 10 n).map Char.toNat := by
  have hdigits : (toString (n : Int)).toList = Nat.toDigits 10 n := by
    rw [show toString (n : Int) = Nat.repr n from rfl, Nat.repr, String.toList_ofList]
  rw [Utf.units, hdigits, List.flatMap_congr (g := fun c => [c.toNat])]
  · exact List.map_eq_flatMap.symm
  · intro c hc
    have hdigit := toNat_digit (digits_toDigits c hc)
    rw [Utf.unitsOf, if_pos (by omega)]

theorem natText_ascii (n : ℕ) : Utf.IsAscii (Utf.units (toString (n : Int))) := by
  intro unit hunit
  rw [units_natText] at hunit
  obtain ⟨c, hc, rfl⟩ := List.mem_map.mp hunit
  have hdigit := toNat_digit (digits_toDigits c hc)
  omega

theorem natText_ne_nil {n : ℕ} : (Nat.toDigits 10 n).map Char.toNat ≠ [] := by
  have hlength := @Nat.length_toDigits_pos 10 n
  intro hnil
  rw [List.map_eq_nil_iff.mp hnil] at hlength
  exact absurd hlength (by simp)

theorem natText_digits {n : ℕ} : ((Nat.toDigits 10 n).map Char.toNat).all Json.isDigit := by
  rw [List.all_map, List.all_eq_true]
  intro c hc
  have hdigit := toNat_digit (digits_toDigits c hc)
  simpa [Json.isDigit] using hdigit

/-- The value of digits is the natural number they write. -/
theorem digitsValue_units (cs : List Char) :
    Json.digitsValue (cs.map Char.toNat) = Nat.ofDigitChars 10 cs 0 := by
  have hfold : ∀ (ds : List Char) (n : ℕ),
      (ds.map Char.toNat).foldl (fun value unit => value * 10 + (unit - 0x30)) n =
        Nat.ofDigitChars 10 ds n := by
    intro ds
    induction ds with
    | nil => intro n; rfl
    | cons c ds ih =>
      intro n
      rw [List.map_cons, List.foldl_cons, Nat.ofDigitChars_cons, ih, mul_comm n 10]
      rfl
  exact hfold cs 0

/-- A text of digits is read as their value. -/
theorem integerText_digits {s : List ℕ} (hne : s ≠ []) (h : s.all Json.isDigit) :
    integerText s = some (Json.digitsValue s : Int) := by
  unfold integerText
  split
  · -- a minus sign is no digit
    rw [List.all_cons, Bool.and_eq_true] at h
    exact absurd h.1 (by decide)
  · rw [if_pos ⟨hne, h⟩]

/-- A natural number is read from its text. -/
theorem integerText_natText (n : ℕ) :
    integerText (Utf.units (toString (n : Int))) = some (n : Int) := by
  rw [units_natText, integerText_digits natText_ne_nil natText_digits, digitsValue_units,
    Nat.ofDigitChars_ten_toDigits]

/-- The units of a negative number's text: the sign, and digits. -/
theorem units_negText (n : ℕ) : Utf.units (toString (Int.negSucc n)) =
    0x2D :: (Nat.toDigits 10 (n + 1)).map Char.toNat := by
  have htext : toString (Int.negSucc n) = "-" ++ toString ((n + 1 : ℕ) : Int) := rfl
  rw [← units_natText, htext, Utf.units, Utf.units, String.toList_append, List.flatMap_append]
  rfl

/-- **An integer is read from its text**, which is ASCII. -/
theorem integerText_toString (n : Int) : integerText (Utf.units (toString n)) = some n := by
  cases n with
  | ofNat n => exact integerText_natText n
  | negSucc n =>
    rw [units_negText, integerText, if_pos ⟨natText_ne_nil, natText_digits⟩, digitsValue_units,
      Nat.ofDigitChars_ten_toDigits]
    rfl

theorem toString_ascii (n : Int) : Utf.IsAscii (Utf.units (toString n)) := by
  cases n with
  | ofNat n => exact natText_ascii n
  | negSucc n =>
    have hdigits := natText_ascii (n + 1)
    rw [units_natText] at hdigits
    rw [units_negText]
    intro unit hunit
    rcases List.mem_cons.mp hunit with rfl | hmem
    · decide
    · exact hdigits unit hmem

/-! ## Round trip -/

/-- **A cursor is read as it was written.** -/
theorem decodeCursor_encodeCursor {members : List (String × String)}
    (h : ∀ m ∈ members, Utf.IsAscii (Utf.units m.1) ∧ Utf.IsAscii (Utf.units m.2)) :
    decodeCursor (encodeCursor members) =
      .ok (Json.record (members.map fun m => (Utf.units m.1, Utf.units m.2))) := by
  set value := members.map fun m => (Utf.units m.1, Utf.units m.2) with hvalue
  have hmembers : ∀ m ∈ value, Utf.IsAscii m.1 ∧ Utf.IsAscii m.2 := List.forall_mem_map.mpr h
  have htext := Json.stringify_ascii hmembers
  have hbytes : ∀ b ∈ Json.stringify value, b < 0x100 := fun b hb =>
    (htext b hb).trans (by norm_num)
  rw [decodeCursor, encodeCursor, ← hvalue, Utf.encode_ascii htext,
    Utf.units_text (Base64.encode_lt hbytes), Base64.decode_encode hbytes,
    Utf.decode_ascii htext, Json.parse_stringify (Json.isUnits_of_ascii hmembers)]

/-- A query whose dates can be sent. -/
def ListLedgerQuery.Dated (query : ListLedgerQuery) : Prop := ∀ c ∈ query.dates, c.1 = true

/-- What a query lies below that has no cursor. -/
theorem below_none {other : Json → Except SqlError (Option Int)} {query : ListLedgerQuery}
    (hdates : query.Dated) : query.below other none = .ok none := by
  rw [ListLedgerQuery.below, guarded_ok.mpr ⟨hdates, rfl⟩]
  rfl

/-- And one that has. -/
theorem below_some {other : Json → Except SqlError (Option Int)} {query : ListLedgerQuery}
    {sequence : Option Json} (hdates : query.Dated) :
    query.below other (some sequence) = (bigintParameter other sequence).map some := by
  rw [ListLedgerQuery.below, guarded_ok.mpr ⟨hdates, rfl⟩]
  cases bigintParameter other sequence <;> rfl

/-- A row's cursor lies at its sequence. -/
theorem below_ledgerCursor {other : Json → Except SqlError (Option Int)} {query : ListLedgerQuery}
    {n : Int} (hdates : query.Dated)
    (hcursor : query.cursor = some (encodeCursor [("sequence", toString n)]))
    (hbigint : inBigint n = true) :
    query.sequence >>= query.below other = .ok (some (some n)) := by
  have hname : Utf.IsAscii (Utf.units "sequence") := by
    unfold Utf.IsAscii
    decide
  have hdecoded := @decodeCursor_encodeCursor [("sequence", toString n)] (by
    simpa using ⟨hname, toString_ascii n⟩)
  have hproperty : readProperty "sequence"
      (Json.record [(Utf.units "sequence", Utf.units (toString n))]) =
      .ok (some (.string (Utf.units (toString n)))) := by
    simp [Json.record, readProperty, Json.member?]
  have hparameter : bigintParameter other (some (.string (Utf.units (toString n)))) =
      .ok (some n) := by
    rw [bigintParameter, integerText_toString]
    exact if_pos hbigint
  have hsequence : query.sequence = .ok (some (some (.string (Utf.units (toString n))))) := by
    unfold ListLedgerQuery.sequence
    simp only [hcursor, hdecoded, List.map_cons, List.map_nil, bind, Except.bind, hproperty, pure,
      Except.pure]
  rw [hsequence]
  exact (below_some hdates).trans (by rw [hparameter]; rfl)

/-- A limit that is in range is taken as it is, and one that is left out is
the default. -/
theorem boundLimit_ok {limit : Option ℕ} {fallback maximum : ℕ}
    (h : ∀ n ∈ limit, 1 ≤ n ∧ n ≤ maximum) :
    boundLimit (limit.map fun n : ℕ => .finite n) fallback maximum = .ok (limit.getD fallback) := by
  cases limit with
  | none => rfl
  | some n =>
    obtain ⟨hlow, hhigh⟩ := h n rfl
    have hinteger : (Number.finite (n : ℚ)).integer? = some (n : ℤ) := Number.integer?_intCast n
    simp only [boundLimit, Option.map_some, hinteger, Option.getD_some]
    rw [if_neg (by omega), Int.toNat_natCast]

theorem one_le_getD {limit : Option ℕ} {fallback maximum : ℕ} (hfallback : 1 ≤ fallback)
    (h : ∀ n ∈ limit, 1 ≤ n ∧ n ≤ maximum) : 1 ≤ limit.getD fallback := by
  cases limit with
  | none => exact hfallback
  | some n => exact (h n rfl).1

end InvoiceReservation
