import InvoiceReservation.Common.Utf
import Mathlib.Data.Rat.Defs
import Mathlib.Tactic.NormNum
/-!
# JSON

Texts and strings are code units. A number is kept as it is written, since
what is made of it is not the text's to say; so are the members of an
object, of which the last of a name counts.
-/

namespace Json

/-- A number as it is written: its digits before and after the point, of
which `scale` stand after it, and its exponent. -/
structure Numeral where
  negative : Bool
  digits : ℕ
  scale : ℕ
  exponent : ℤ
  deriving DecidableEq, Repr

/-- The number that is written. -/
def Numeral.value (n : Numeral) : ℚ :=
  (if n.negative then -1 else 1) * n.digits * 10 ^ (n.exponent - n.scale)

end Json

/-- A JSON value. -/
inductive Json
  | null
  | bool (value : Bool)
  | number (value : Json.Numeral)
  | string (value : List ℕ)
  | array (items : List Json)
  | object (members : List (List ℕ × Json))
  deriving Repr

namespace Json

/-- A member of an object: the last of its name. -/
def member? (name : List ℕ) (members : List (List ℕ × Json)) : Option Json :=
  (members.reverse.find? fun m => m.1 = name).map (·.2)

/-! ## Strings -/

/-- The digit of a value below sixteen. -/
def hexDigit (value : ℕ) : ℕ := if value < 10 then 0x30 + value else 0x61 + (value - 10)

/-- The value of a hexadecimal digit. -/
def hexValue (unit : ℕ) : Option ℕ :=
  if 0x30 ≤ unit ∧ unit ≤ 0x39 then some (unit - 0x30)
  else if 0x61 ≤ unit ∧ unit ≤ 0x66 then some (unit - 0x61 + 10)
  else if 0x41 ≤ unit ∧ unit ≤ 0x46 then some (unit - 0x41 + 10)
  else none

/-- `\uXXXX`. -/
def hexEscape (unit : ℕ) : List ℕ :=
  [0x5C, 0x75, hexDigit (unit / 0x1000), hexDigit (unit / 0x100 % 0x10),
    hexDigit (unit / 0x10 % 0x10), hexDigit (unit % 0x10)]

/-- The letter of a unit that has an escape of two characters. -/
def shortEscape (unit : ℕ) : Option ℕ :=
  if unit = 0x22 ∨ unit = 0x5C then some unit
  else if unit = 0x08 then some 0x62
  else if unit = 0x0C then some 0x66
  else if unit = 0x0A then some 0x6E
  else if unit = 0x0D then some 0x72
  else if unit = 0x09 then some 0x74
  else none

/-- The unit of an escape of two characters. -/
def ofShortEscape (letter : ℕ) : Option ℕ :=
  if letter = 0x22 ∨ letter = 0x5C ∨ letter = 0x2F then some letter
  else if letter = 0x62 then some 0x08
  else if letter = 0x66 then some 0x0C
  else if letter = 0x6E then some 0x0A
  else if letter = 0x72 then some 0x0D
  else if letter = 0x74 then some 0x09
  else none

/-- A unit of a string, as it is written: a surrogate without a partner is
escaped. -/
def escape (unit : ℕ) : List ℕ :=
  match shortEscape unit with
  | some letter => [0x5C, letter]
  | none => if unit < 0x20 ∨ Utf.isHigh unit ∨ Utf.isLow unit then hexEscape unit else [unit]

/-- The units of a string, as they are written. -/
def escaped : List ℕ → List ℕ
  | [] => []
  | [unit] => escape unit
  | unit :: next :: rest =>
    if Utf.isHigh unit && Utf.isLow next then unit :: next :: escaped rest
    else escape unit ++ escaped (next :: rest)

/-- A string, as it is written. -/
def quote (s : List ℕ) : List ℕ := 0x22 :: (escaped s ++ [0x22])

/-- The units of a string up to its closing quote, and what follows it. -/
def readString : List ℕ → Option (List ℕ × List ℕ)
  | [] => none
  | 0x22 :: rest => some ([], rest)
  | 0x5C :: 0x75 :: a :: b :: c :: d :: rest => do
    let unit := (← hexValue a) * 0x1000 + (← hexValue b) * 0x100 + (← hexValue c) * 0x10 +
      (← hexValue d)
    let (s, rest) ← readString rest
    some (unit :: s, rest)
  | 0x5C :: letter :: rest => do
    let unit ← ofShortEscape letter
    let (s, rest) ← readString rest
    some (unit :: s, rest)
  | unit :: rest => do
    guard (0x20 ≤ unit ∧ unit ≠ 0x5C)
    let (s, rest) ← readString rest
    some (unit :: s, rest)

theorem hexValue_hexDigit : ∀ value < 16, hexValue (hexDigit value) = some value := by
  decide

theorem ofShortEscape_of_shortEscape {unit letter : ℕ} (h : shortEscape unit = some letter) :
    ofShortEscape letter = some unit ∧ letter ≠ 0x75 := by
  unfold shortEscape at h
  split at h
  · cases h; rename_i hu; obtain rfl | rfl := hu <;> decide
  split at h
  · cases h; subst_vars; decide
  split at h
  · cases h; subst_vars; decide
  split at h
  · cases h; subst_vars; decide
  split at h
  · cases h; subst_vars; decide
  split at h
  · cases h; subst_vars; decide
  · cases h

theorem readString_short {unit letter : ℕ} (hletter : shortEscape unit = some letter)
    {s rest after : List ℕ} (h : readString rest = some (s, after)) :
    readString (0x5C :: letter :: rest) = some (unit :: s, after) := by
  obtain ⟨hread, hu⟩ := ofShortEscape_of_shortEscape hletter
  simp [readString, hread, h, hu]

theorem readString_hex {unit : ℕ} (hunit : unit < 0x10000) {s rest after : List ℕ}
    (h : readString rest = some (s, after)) :
    readString (hexEscape unit ++ rest) = some (unit :: s, after) := by
  have h1 := hexValue_hexDigit (unit / 0x1000) (by omega)
  have h2 := hexValue_hexDigit (unit / 0x100 % 0x10) (by omega)
  have h3 := hexValue_hexDigit (unit / 0x10 % 0x10) (by omega)
  have h4 := hexValue_hexDigit (unit % 0x10) (by omega)
  simp only [hexEscape, List.cons_append, List.nil_append, readString, h1, h2, h3, h4, h,
    Option.bind_eq_bind, Option.bind_some, Option.some.injEq, Prod.mk.injEq, List.cons.injEq,
    and_true]
  omega

theorem readString_plain {unit : ℕ} (hspace : 0x20 ≤ unit) (hquote : unit ≠ 0x22)
    (hescape : unit ≠ 0x5C) {s rest after : List ℕ} (h : readString rest = some (s, after)) :
    readString (unit :: rest) = some (unit :: s, after) := by
  rw [readString]
  · simp [h, hspace, hescape]
  all_goals simp_all

/-- A unit is read from what is written for it. -/
theorem readString_escape {unit : ℕ} (hunit : unit < 0x10000) {s rest after : List ℕ}
    (h : readString rest = some (s, after)) :
    readString (escape unit ++ rest) = some (unit :: s, after) := by
  unfold escape
  cases hshort : shortEscape unit with
  | some letter => exact readString_short hshort h
  | none =>
    have hplain : unit ≠ 0x22 ∧ unit ≠ 0x5C := by
      constructor <;> rintro rfl <;> cases hshort
    dsimp only
    split
    · exact readString_hex hunit h
    · exact readString_plain (by omega) hplain.1 hplain.2 h

/-- **A string is read from what is written for it.** -/
theorem readString_escaped {s : List ℕ} (hs : ∀ unit ∈ s, unit < 0x10000) (rest : List ℕ) :
    readString (escaped s ++ 0x22 :: rest) = some (s, rest) := by
  fun_induction escaped s with
  | case1 => simp [readString]
  | case2 unit =>
    have hend : readString (0x22 :: rest) = some ([], rest) := by simp [readString]
    exact readString_escape (hs unit List.mem_cons_self) hend
  | case3 unit next tail hpair ih =>
    -- a surrogate pair stands as it is
    have hsurrogates := hpair
    simp only [Utf.isHigh, Utf.isLow, Bool.and_eq_true, decide_eq_true_eq] at hsurrogates
    have hrest := ih fun u hu => hs u (by simp [hu])
    rw [List.cons_append, List.cons_append]
    exact readString_plain (by omega) (by omega) (by omega)
      (readString_plain (by omega) (by omega) (by omega) hrest)
  | case4 unit next tail _ ih =>
    have hrest := ih fun u hu => hs u (List.mem_cons_of_mem _ hu)
    rw [List.append_assoc]
    exact readString_escape (hs unit List.mem_cons_self) hrest

/-! ## Values -/

def isSpace (unit : ℕ) : Bool := unit = 0x20 || unit = 0x09 || unit = 0x0A || unit = 0x0D

/-- What follows the white space. -/
def skip (s : List ℕ) : List ℕ := s.dropWhile isSpace

theorem skip_cons {unit : ℕ} (h : isSpace unit = false) (s : List ℕ) :
    skip (unit :: s) = unit :: s := by
  simp [skip, h]

def isDigit (unit : ℕ) : Bool := 0x30 ≤ unit && unit ≤ 0x39

/-- The value of digits. -/
def digitsValue (digits : List ℕ) : ℕ :=
  digits.foldl (fun value unit => value * 10 + (unit - 0x30)) 0

/-- The digits a number begins with: one zero, or more of which the first is
none. -/
def readWhole (s : List ℕ) : Option (List ℕ × List ℕ) :=
  match s with
  | 0x30 :: rest => some ([0x30], rest)
  | _ => if (s.takeWhile isDigit).isEmpty then none else some (s.span isDigit)

/-- The digits behind the point, if there is one. -/
def readFraction (s : List ℕ) : Option (List ℕ × List ℕ) :=
  match s with
  | 0x2E :: rest => if (rest.takeWhile isDigit).isEmpty then none else some (rest.span isDigit)
  | _ => some ([], s)

/-- The exponent, if there is one. -/
def readExponent (s : List ℕ) : Option (ℤ × List ℕ) :=
  match s with
  | e :: rest =>
    if e = 0x65 ∨ e = 0x45 then
      let (sign, rest) : ℤ × List ℕ :=
        match rest with
        | 0x2D :: rest => (-1, rest)
        | 0x2B :: rest => (1, rest)
        | _ => (1, rest)
      if (rest.takeWhile isDigit).isEmpty then none
      else some (sign * digitsValue (rest.takeWhile isDigit), rest.dropWhile isDigit)
    else some (0, s)
  | [] => some (0, s)

/-- A number, and what follows it. -/
def readNumber (s : List ℕ) : Option (Numeral × List ℕ) := do
  let (negative, s) :=
    match s with
    | 0x2D :: rest => (true, rest)
    | _ => (false, s)
  let (whole, s) ← readWhole s
  let (fraction, s) ← readFraction s
  let (exponent, s) ← readExponent s
  some (⟨negative, digitsValue (whole ++ fraction), fraction.length, exponent⟩, s)

mutual

/-- A value, and what follows it. Each value within another is read with
less fuel. -/
def readValue : ℕ → List ℕ → Option (Json × List ℕ)
  | 0, _ => none
  | fuel + 1, s =>
    match skip s with
    | 0x22 :: rest => (readString rest).map fun (s, rest) => (.string s, rest)
    | 0x7B :: rest =>
      match skip rest with
      | 0x7D :: rest => some (.object [], rest)
      | rest => (readMembers fuel rest).map fun (members, rest) => (.object members, rest)
    | 0x5B :: rest =>
      match skip rest with
      | 0x5D :: rest => some (.array [], rest)
      | rest => (readItems fuel rest).map fun (items, rest) => (.array items, rest)
    | 0x74 :: 0x72 :: 0x75 :: 0x65 :: rest => some (.bool true, rest)
    | 0x66 :: 0x61 :: 0x6C :: 0x73 :: 0x65 :: rest => some (.bool false, rest)
    | 0x6E :: 0x75 :: 0x6C :: 0x6C :: rest => some (.null, rest)
    | s => (readNumber s).map fun (n, rest) => (.number n, rest)

/-- The members of an object, up to its closing brace. -/
def readMembers : ℕ → List ℕ → Option (List (List ℕ × Json) × List ℕ)
  | 0, _ => none
  | fuel + 1, s =>
    match skip s with
    | 0x22 :: rest => do
      let (name, rest) ← readString rest
      match skip rest with
      | 0x3A :: rest =>
        let (value, rest) ← readValue fuel rest
        match skip rest with
        | 0x2C :: rest =>
          let (members, rest) ← readMembers fuel rest
          some ((name, value) :: members, rest)
        | 0x7D :: rest => some ([(name, value)], rest)
        | _ => none
      | _ => none
    | _ => none

/-- The items of an array, up to its closing bracket. -/
def readItems : ℕ → List ℕ → Option (List Json × List ℕ)
  | 0, _ => none
  | fuel + 1, s => do
    let (value, rest) ← readValue fuel s
    match skip rest with
    | 0x2C :: rest =>
      let (items, rest) ← readItems fuel rest
      some (value :: items, rest)
    | 0x5D :: rest => some ([value], rest)
    | _ => none

end

/-- `JSON.parse`. -/
def parse (s : List ℕ) : Option Json :=
  match readValue (s.length + 1) s with
  | some (value, rest) => if skip rest = [] then some value else none
  | none => none

/-! ## Records of strings -/

/-- The members of a record, as they are written. -/
def writeMembers : List (List ℕ × List ℕ) → List ℕ
  | [] => []
  | [m] => quote m.1 ++ 0x3A :: quote m.2
  | m :: rest => quote m.1 ++ 0x3A :: (quote m.2 ++ 0x2C :: writeMembers rest)

/-- `JSON.stringify`, of a record whose values are strings. -/
def stringify (members : List (List ℕ × List ℕ)) : List ℕ :=
  0x7B :: (writeMembers members ++ [0x7D])

/-- A record as a value. -/
def record (members : List (List ℕ × List ℕ)) : Json :=
  .object (members.map fun m => (m.1, .string m.2))

/-- The units of a record's names and values. -/
def IsUnits (members : List (List ℕ × List ℕ)) : Prop :=
  ∀ m ∈ members, (∀ unit ∈ m.1, unit < 0x10000) ∧ ∀ unit ∈ m.2, unit < 0x10000

theorem readValue_quote {s : List ℕ} (hs : ∀ unit ∈ s, unit < 0x10000) (fuel : ℕ)
    (rest : List ℕ) : readValue (fuel + 1) (quote s ++ rest) = some (.string s, rest) := by
  have hread := readString_escaped hs rest
  simp [quote, readValue, skip_cons, isSpace, hread]

/-- A member is read, and then the others. -/
theorem readMembers_more {name value : List ℕ} (hname : ∀ unit ∈ name, unit < 0x10000)
    (hvalue : ∀ unit ∈ value, unit < 0x10000) {fuel : ℕ} {tail rest : List ℕ}
    {members : List (List ℕ × Json)}
    (h : readMembers (fuel + 1) tail = some (members, rest)) :
    readMembers (fuel + 2) (quote name ++ 0x3A :: (quote value ++ 0x2C :: tail)) =
      some ((name, .string value) :: members, rest) := by
  have hread := readString_escaped hname (0x3A :: (quote value ++ 0x2C :: tail))
  have hvalue' := readValue_quote hvalue fuel (0x2C :: tail)
  simp only [quote, List.cons_append, List.append_assoc, List.nil_append] at hread hvalue' ⊢
  rw [readMembers]
  simp [skip_cons, isSpace, hread, hvalue', h]

/-- The last member is read. -/
theorem readMembers_last {name value : List ℕ} (hname : ∀ unit ∈ name, unit < 0x10000)
    (hvalue : ∀ unit ∈ value, unit < 0x10000) {fuel : ℕ} {rest : List ℕ} :
    readMembers (fuel + 2) (quote name ++ 0x3A :: (quote value ++ 0x7D :: rest)) =
      some ([(name, .string value)], rest) := by
  have hread := readString_escaped hname (0x3A :: (quote value ++ 0x7D :: rest))
  have hvalue' := readValue_quote hvalue fuel (0x7D :: rest)
  simp only [quote, List.cons_append, List.append_assoc, List.nil_append] at hread hvalue' ⊢
  rw [readMembers]
  simp [skip_cons, isSpace, hread, hvalue']

/-- Members are read from what is written for them. -/
theorem readMembers_write {members : List (List ℕ × List ℕ)} (hne : members ≠ [])
    (hunits : IsUnits members) (fuel : ℕ) (rest : List ℕ) :
    readMembers (fuel + members.length + 1) (writeMembers members ++ 0x7D :: rest) =
      some (members.map fun m => (m.1, .string m.2), rest) := by
  fun_induction writeMembers members with
  | case1 => exact absurd rfl hne
  | case2 m =>
    have hm := hunits m List.mem_cons_self
    simpa using readMembers_last hm.1 hm.2
  | case3 m tail htail ih =>
    have hm := hunits m List.mem_cons_self
    have hrest := ih (fun hnil => htail (by simp [hnil])) fun x hx =>
      hunits x (List.mem_cons_of_mem _ hx)
    have hmore := readMembers_more hm.1 hm.2 hrest
    simpa [add_assoc, add_comm, add_left_comm] using hmore

theorem length_writeMembers (members : List (List ℕ × List ℕ)) :
    members.length ≤ (writeMembers members).length := by
  fun_induction writeMembers members with
  | case1 => rfl
  | case2 m => simp [quote]
  | case3 m tail _ ih =>
    simp only [List.length_append, List.length_cons]
    omega

/-- **A record is read from what is written for it.** -/
theorem parse_stringify {members : List (List ℕ × List ℕ)} (hunits : IsUnits members) :
    parse (stringify members) = some (record members) := by
  have hvalue : readValue ((stringify members).length + 1) (stringify members) =
      some (record members, []) := by
    cases members with
    | nil => rfl
    | cons m tail =>
      -- the text leaves fuel for all members
      obtain ⟨fuel, hfuel⟩ := Nat.exists_eq_add_of_le (length_writeMembers (m :: tail))
      have hread := readMembers_write (by simp) hunits (fuel + 1) []
      have hlength : (stringify (m :: tail)).length = fuel + 1 + (m :: tail).length + 1 := by
        rw [stringify, List.length_cons, List.length_append, List.length_singleton, hfuel]
        omega
      obtain ⟨w, hw⟩ : ∃ w, writeMembers (m :: tail) = 0x22 :: w := by
        cases tail with
        | nil => exact ⟨_, rfl⟩
        | cons m' tail => exact ⟨_, rfl⟩
      rw [hlength, stringify, readValue]
      rw [hw] at hread ⊢
      simp only [List.cons_append] at hread ⊢
      simp only [skip_cons (show isSpace 0x7B = false by decide),
        skip_cons (show isSpace 0x22 = false by decide), hread, Option.map_some, record]
  rw [parse, hvalue]
  rfl

/-! ## ASCII -/

theorem hexDigit_lt : ∀ value < 16, hexDigit value < 0x80 := by
  decide

theorem shortEscape_lt {unit letter : ℕ} (h : shortEscape unit = some letter)
    (hunit : unit < 0x80) : letter < 0x80 := by
  unfold shortEscape at h
  split_ifs at h <;> simp at h <;> omega

theorem escape_ascii {unit : ℕ} (hunit : unit < 0x80) : Utf.IsAscii (escape unit) := by
  unfold escape
  cases hshort : shortEscape unit with
  | some letter => simp [shortEscape_lt hshort hunit]
  | none =>
    dsimp only
    split
    · have h1 := hexDigit_lt (unit / 0x1000) (by omega)
      have h2 := hexDigit_lt (unit / 0x100 % 0x10) (by omega)
      have h3 := hexDigit_lt (unit / 0x10 % 0x10) (by omega)
      have h4 := hexDigit_lt (unit % 0x10) (by omega)
      simp [hexEscape, h1, h2, h3, h4]
    · simpa using hunit

theorem escaped_ascii {s : List ℕ} (h : Utf.IsAscii s) : Utf.IsAscii (escaped s) := by
  fun_induction escaped s with
  | case1 => exact h
  | case2 unit => exact escape_ascii (Utf.isAscii_cons.mp h).1
  | case3 unit next tail hpair =>
    -- an ASCII unit begins no pair
    rw [Utf.isHigh_ascii (Utf.isAscii_cons.mp h).1] at hpair
    exact absurd hpair (by simp)
  | case4 unit next tail _ ih =>
    obtain ⟨hunit, htail⟩ := Utf.isAscii_cons.mp h
    exact Utf.isAscii_append.mpr ⟨escape_ascii hunit, ih htail⟩

theorem quote_ascii {s : List ℕ} (h : Utf.IsAscii s) : Utf.IsAscii (quote s) := by
  simp [quote, escaped_ascii h]

theorem writeMembers_ascii {members : List (List ℕ × List ℕ)}
    (h : ∀ m ∈ members, Utf.IsAscii m.1 ∧ Utf.IsAscii m.2) :
    Utf.IsAscii (writeMembers members) := by
  fun_induction writeMembers members with
  | case1 => exact Utf.isAscii_nil
  | case2 m =>
    obtain ⟨hname, hvalue⟩ := h m List.mem_cons_self
    simp [quote_ascii hname, quote_ascii hvalue]
  | case3 m tail _ ih =>
    obtain ⟨⟨hname, hvalue⟩, htail⟩ := List.forall_mem_cons.mp h
    simp [quote_ascii hname, quote_ascii hvalue, ih htail]

/-- A record of ASCII strings is written in ASCII. -/
theorem stringify_ascii {members : List (List ℕ × List ℕ)}
    (h : ∀ m ∈ members, Utf.IsAscii m.1 ∧ Utf.IsAscii m.2) : Utf.IsAscii (stringify members) := by
  simp [stringify, writeMembers_ascii h]

/-- And ASCII strings are of code units. -/
theorem isUnits_of_ascii {members : List (List ℕ × List ℕ)}
    (h : ∀ m ∈ members, Utf.IsAscii m.1 ∧ Utf.IsAscii m.2) : IsUnits members := by
  intro m hm
  obtain ⟨hname, hvalue⟩ := h m hm
  exact ⟨fun u hu => (hname u hu).trans (by norm_num),
    fun u hu => (hvalue u hu).trans (by norm_num)⟩

end Json
