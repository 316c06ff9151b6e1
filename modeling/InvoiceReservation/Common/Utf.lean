import Mathlib.Data.List.Basic
/-!
# Code units and bytes

The text of a JavaScript string is a list of UTF-16 code units, and a
buffer is a list of bytes. Writing a string out replaces a surrogate that
has no partner, and reading bytes back replaces each longest part that
could not be continued.
-/

namespace Utf

/-- U+FFFD, which stands for what cannot be encoded or decoded. -/
def replacement : ℕ := 0xFFFD

/-- The code units of a code point. -/
def unitsOf (point : ℕ) : List ℕ :=
  if point < 0x10000 then [point]
  else [0xD800 + (point - 0x10000) / 0x400, 0xDC00 + (point - 0x10000) % 0x400]

/-- The code units of a text. -/
def units (s : String) : List ℕ := s.toList.flatMap fun c => unitsOf c.toNat

def isHigh (unit : ℕ) : Bool := 0xD800 ≤ unit && unit < 0xDC00

def isLow (unit : ℕ) : Bool := 0xDC00 ≤ unit && unit < 0xE000

/-- The code point of a unit that has no partner. -/
def alone (unit : ℕ) : ℕ := if isHigh unit || isLow unit then replacement else unit

/-- The code points of a string. -/
def points : List ℕ → List ℕ
  | [] => []
  | [unit] => [alone unit]
  | unit :: next :: rest =>
    if isHigh unit && isLow next then
      (0x10000 + (unit - 0xD800) * 0x400 + (next - 0xDC00)) :: points rest
    else alone unit :: points (next :: rest)

/-- The text of a string, as it is written out. -/
def text (s : List ℕ) : String := String.ofList ((points s).map Char.ofNat)

/-- The bytes of a code point. -/
def bytesOf (point : ℕ) : List ℕ :=
  if point < 0x80 then [point]
  else if point < 0x800 then [0xC0 + point / 0x40, 0x80 + point % 0x40]
  else if point < 0x10000 then
    [0xE0 + point / 0x1000, 0x80 + point / 0x40 % 0x40, 0x80 + point % 0x40]
  else
    [0xF0 + point / 0x40000, 0x80 + point / 0x1000 % 0x40, 0x80 + point / 0x40 % 0x40,
      0x80 + point % 0x40]

/-- `Buffer.from(s, 'utf8')`. -/
def encode (s : List ℕ) : List ℕ := (points s).flatMap bytesOf

/-! ## Decoding -/

/-- What is missing of a code point: so many bytes, the next of them within
bounds. -/
structure Pending where
  point : ℕ
  needed : ℕ
  lower : ℕ
  upper : ℕ

/-- A first byte: the code points it completes, and what it leaves pending. -/
def start (byte : ℕ) : List ℕ × Option Pending :=
  if byte < 0x80 then ([byte], none)
  else if byte < 0xC2 then ([replacement], none)
  else if byte < 0xE0 then ([], some ⟨byte - 0xC0, 1, 0x80, 0xBF⟩)
  else if byte < 0xF0 then
    ([], some ⟨byte - 0xE0, 2, if byte = 0xE0 then 0xA0 else 0x80,
      if byte = 0xED then 0x9F else 0xBF⟩)
  else if byte < 0xF5 then
    ([], some ⟨byte - 0xF0, 3, if byte = 0xF0 then 0x90 else 0x80,
      if byte = 0xF4 then 0x8F else 0xBF⟩)
  else ([replacement], none)

/-- One byte. A byte that does not continue what is pending starts anew. -/
def next : Option Pending → ℕ → List ℕ × Option Pending
  | none, byte => start byte
  | some pending, byte =>
    if pending.lower ≤ byte ∧ byte ≤ pending.upper then
      let point := pending.point * 0x40 + (byte - 0x80)
      if pending.needed = 1 then ([point], none)
      else ([], some ⟨point, pending.needed - 1, 0x80, 0xBF⟩)
    else (replacement :: (start byte).1, (start byte).2)

/-- The code points of bytes. -/
def decodeFrom : Option Pending → List ℕ → List ℕ
  | none, [] => []
  | some _, [] => [replacement]
  | pending, byte :: rest => (next pending byte).1 ++ decodeFrom (next pending byte).2 rest

/-- `buffer.toString('utf8')`. -/
def decode (bytes : List ℕ) : List ℕ := (decodeFrom none bytes).flatMap unitsOf

/-! ## ASCII -/

/-- A string of ASCII characters. -/
def IsAscii (s : List ℕ) : Prop := ∀ unit ∈ s, unit < 0x80

@[simp] theorem isAscii_nil : IsAscii [] := fun _ h => absurd h List.not_mem_nil

@[simp] theorem isAscii_cons {unit : ℕ} {s : List ℕ} :
    IsAscii (unit :: s) ↔ unit < 0x80 ∧ IsAscii s :=
  List.forall_mem_cons

@[simp] theorem isAscii_append {s t : List ℕ} : IsAscii (s ++ t) ↔ IsAscii s ∧ IsAscii t :=
  List.forall_mem_append

/-- A text of ASCII characters is one. -/
theorem units_isAscii {s : String} (h : ∀ c ∈ s.toList, c.toNat < 0x80) : IsAscii (units s) := by
  intro unit hunit
  obtain ⟨c, hc, hmem⟩ := List.mem_flatMap.mp hunit
  have hlt := h c hc
  rw [unitsOf, if_pos (by omega), List.mem_singleton] at hmem
  omega

theorem isHigh_ascii {unit : ℕ} (h : unit < 0x80) : isHigh unit = false := by
  have hlow : ¬ 0xD800 ≤ unit := by omega
  simp [isHigh, hlow]

theorem alone_ascii {unit : ℕ} (h : unit < 0x80) : alone unit = unit := by
  have hlow : ¬ 0xDC00 ≤ unit := by omega
  simp [alone, isHigh_ascii h, isLow, hlow]

theorem points_ascii {s : List ℕ} (h : IsAscii s) : points s = s := by
  fun_induction points s with
  | case1 => rfl
  | case2 unit => rw [alone_ascii (h unit List.mem_cons_self)]
  | case3 unit next rest hpair =>
    rw [isHigh_ascii (h unit List.mem_cons_self)] at hpair
    exact absurd hpair (by simp)
  | case4 unit next rest _ ih =>
    rw [alone_ascii (h unit List.mem_cons_self), ih fun u hu => h u (List.mem_cons_of_mem _ hu)]

/-- An ASCII string is its own bytes. -/
theorem encode_ascii {s : List ℕ} (h : IsAscii s) : encode s = s := by
  rw [encode, points_ascii h, List.flatMap_congr (g := fun unit => [unit])]
  · simp
  · intro unit hunit
    rw [bytesOf, if_pos (h unit hunit)]

/-- ASCII bytes are read as they stand. -/
theorem decode_ascii {s : List ℕ} (h : IsAscii s) : decode s = s := by
  have hpoints : decodeFrom none s = s := by
    induction s with
    | nil => rfl
    | cons byte rest ih =>
      have hbyte : byte < 0x80 := (isAscii_cons.mp h).1
      rw [decodeFrom, next, start, if_pos hbyte]
      exact congrArg (byte :: ·) (ih fun u hu => h u (List.mem_cons_of_mem _ hu))
  rw [decode, hpoints, List.flatMap_congr (g := fun unit => [unit])]
  · simp
  · intro unit hunit
    have hunit' := h unit hunit
    rw [unitsOf, if_pos (by omega)]

/-- An ASCII string is read from what is written of it. -/
theorem decode_encode {s : List ℕ} (h : IsAscii s) : decode (encode s) = s := by
  rw [encode_ascii h, decode_ascii h]

theorem toNat_ofNat_ascii {unit : ℕ} (h : unit < 0x80) : (Char.ofNat unit).toNat = unit := by
  have hvalid : unit.isValidChar := Or.inl (by omega)
  rw [Char.ofNat, dif_pos hvalid]
  rfl

/-- The units of an ASCII string's text are its own. -/
theorem units_text {s : List ℕ} (h : IsAscii s) : units (text s) = s := by
  rw [text, points_ascii h, units, String.toList_ofList, List.flatMap_map,
    List.flatMap_congr (g := fun unit => [unit])]
  · simp
  · intro unit hunit
    have hunit' := h unit hunit
    rw [toNat_ofNat_ascii hunit', unitsOf, if_pos (by omega)]

/-! ## Every text -/

/-- The code points of characters: no surrogates. -/
def IsScalar (point : ℕ) : Prop := point < 0xD800 ∨ 0xE000 ≤ point ∧ point < 0x110000

theorem isScalar_toNat (c : Char) : IsScalar c.toNat := by
  have hvalid : c.toNat.isValidChar := c.valid
  unfold Nat.isValidChar at hvalid
  unfold IsScalar
  omega

theorem alone_scalar {point : ℕ} (h : IsScalar point) :
    isHigh point = false ∧ alone point = point := by
  unfold IsScalar at h
  have hhigh : isHigh point = false := by
    simp only [isHigh, Bool.and_eq_false_iff, decide_eq_false_iff_not]
    omega
  have hlow : isLow point = false := by
    simp only [isLow, Bool.and_eq_false_iff, decide_eq_false_iff_not]
    omega
  exact ⟨hhigh, by simp [alone, hhigh, hlow]⟩

/-- The units of a code point are read as it. -/
theorem points_unitsOf {point : ℕ} (h : IsScalar point) (rest : List ℕ) :
    points (unitsOf point ++ rest) = point :: points rest := by
  by_cases hshort : point < 0x10000
  · obtain ⟨hhigh, halone⟩ := alone_scalar h
    rw [unitsOf, if_pos hshort, List.singleton_append]
    cases rest with
    | nil =>
      show [alone point] = [point]
      rw [halone]
    | cons next rest =>
      rw [points, hhigh, halone]
      rfl
  · have hpoint : 0x10000 ≤ point ∧ point < 0x110000 := by
      unfold IsScalar at h
      omega
    have hhigh : isHigh (0xD800 + (point - 0x10000) / 0x400) = true := by
      simp only [isHigh, Bool.and_eq_true, decide_eq_true_eq]
      omega
    have hlow : isLow (0xDC00 + (point - 0x10000) % 0x400) = true := by
      simp only [isLow, Bool.and_eq_true, decide_eq_true_eq]
      omega
    have hvalue : 0x10000 + (0xD800 + (point - 0x10000) / 0x400 - 0xD800) * 0x400 +
        (0xDC00 + (point - 0x10000) % 0x400 - 0xDC00) = point := by
      omega
    rw [unitsOf, if_neg hshort, List.cons_append, List.singleton_append, points, hhigh, hlow,
      Bool.and_self, if_pos rfl, hvalue]

/-- The code points of a text are those of its characters. -/
theorem points_units (s : String) : points (units s) = s.toList.map Char.toNat := by
  rw [units]
  induction s.toList with
  | nil => rfl
  | cons c cs ih =>
    rw [List.flatMap_cons, points_unitsOf (isScalar_toNat c), ih, List.map_cons]

/-- The text of a text's units is the text. -/
@[simp] theorem text_units (s : String) : text (units s) = s := by
  rw [text, points_units, List.map_map, List.map_congr_left (g := id)]
  · simp
  · intro c _
    exact Char.ofNat_toNat c

/-- A unit that is no surrogate pairs with none. -/
theorem points_append_cons {unit : ℕ} (hhigh : isHigh unit = false) (hlow : isLow unit = false)
    (s rest : List ℕ) : points (s ++ unit :: rest) = points s ++ unit :: points rest := by
  have halone : alone unit = unit := by simp [alone, hhigh, hlow]
  fun_induction points s with
  | case1 =>
    cases rest with
    | nil => simp [points, halone]
    | cons next rest => simp [points, hhigh, halone]
  | case2 u =>
    rw [List.singleton_append, points, hlow, Bool.and_false, if_neg (by simp),
      List.singleton_append]
    congr 1
    cases rest with
    | nil => simp [points, halone]
    | cons next rest => simp [points, hhigh, halone]
  | case3 u next s hpair ih =>
    rw [List.cons_append, List.cons_append, points, if_pos hpair, ih, List.cons_append]
  | case4 u next s hpair ih =>
    rw [List.cons_append, List.cons_append, points, if_neg hpair, List.cons_append]
    congr 1

/-- The text on both sides of such a unit. -/
theorem toList_text_append_cons {unit : ℕ} (hhigh : isHigh unit = false) (hlow : isLow unit = false)
    (s rest : List ℕ) :
    (text (s ++ unit :: rest)).toList =
      (text s).toList ++ Char.ofNat unit :: (text rest).toList := by
  simp [text, points_append_cons hhigh hlow]

/-- A text is told by its code units. -/
theorem units_injective : Function.Injective units := by
  intro s s' h
  have hpoints : s.toList.map Char.toNat = s'.toList.map Char.toNat := by
    rw [← points_units, h, points_units]
  exact String.toList_inj.mp (List.map_injective_iff.mpr (fun _ _ => Char.toNat_inj.mp) hpoints)

/-- A first byte of more, and what it leaves pending. -/
theorem decodeFrom_start {byte : ℕ} {pending : Pending} (h : start byte = ([], some pending))
    (rest : List ℕ) : decodeFrom none (byte :: rest) = decodeFrom (some pending) rest := by
  rw [decodeFrom, next, h, List.nil_append]

/-- A byte that continues, and is not the last. -/
theorem decodeFrom_more {byte : ℕ} {pending : Pending} (hneeded : pending.needed ≠ 1)
    (h : pending.lower ≤ byte ∧ byte ≤ pending.upper) (rest : List ℕ) :
    decodeFrom (some pending) (byte :: rest) =
      decodeFrom (some ⟨pending.point * 0x40 + (byte - 0x80), pending.needed - 1, 0x80, 0xBF⟩)
        rest := by
  have hnext : next (some pending) byte =
      ([], some ⟨pending.point * 0x40 + (byte - 0x80), pending.needed - 1, 0x80, 0xBF⟩) := by
    simp only [next, if_pos h, if_neg hneeded]
  rw [decodeFrom, hnext, List.nil_append]

/-- The last byte of a code point. -/
theorem decodeFrom_final {byte : ℕ} {pending : Pending} (hneeded : pending.needed = 1)
    (h : pending.lower ≤ byte ∧ byte ≤ pending.upper) (rest : List ℕ) :
    decodeFrom (some pending) (byte :: rest) =
      (pending.point * 0x40 + (byte - 0x80)) :: decodeFrom none rest := by
  have hnext : next (some pending) byte = ([pending.point * 0x40 + (byte - 0x80)], none) := by
    simp only [next, if_pos h, if_pos hneeded]
  rw [decodeFrom, hnext]
  rfl

/-- **The bytes of a code point are read as it**, one case for each length. -/
theorem decodeFrom_bytesOf {point : ℕ} (h : IsScalar point) (rest : List ℕ) :
    decodeFrom none (bytesOf point ++ rest) = point :: decodeFrom none rest := by
  unfold IsScalar at h
  by_cases hone : point < 0x80
  · rw [bytesOf, if_pos hone, List.singleton_append, decodeFrom, next, start, if_pos hone]
    rfl
  by_cases htwo : point < 0x800
  · have hstart : start (0xC0 + point / 0x40) = ([], some ⟨point / 0x40, 1, 0x80, 0xBF⟩) := by
      rw [start, if_neg (by omega), if_neg (by omega), if_pos (by omega), Nat.add_sub_cancel_left]
    have hvalue : point / 0x40 * 0x40 + (0x80 + point % 0x40 - 0x80) = point := by omega
    rw [bytesOf, if_neg hone, if_pos htwo, List.cons_append, List.singleton_append,
      decodeFrom_start hstart, decodeFrom_final rfl (by dsimp only; omega)]
    dsimp only
    rw [hvalue]
  by_cases hthree : point < 0x10000
  · -- a surrogate would lie beyond the bounds of the second byte
    have hstart : start (0xE0 + point / 0x1000) = ([], some ⟨point / 0x1000, 2,
        if 0xE0 + point / 0x1000 = 0xE0 then 0xA0 else 0x80,
        if 0xE0 + point / 0x1000 = 0xED then 0x9F else 0xBF⟩) := by
      rw [start, if_neg (by omega), if_neg (by omega), if_neg (by omega), if_pos (by omega),
        Nat.add_sub_cancel_left]
    have hbounds : (if 0xE0 + point / 0x1000 = 0xE0 then 0xA0 else 0x80) ≤
          0x80 + point / 0x40 % 0x40 ∧
        0x80 + point / 0x40 % 0x40 ≤ if 0xE0 + point / 0x1000 = 0xED then 0x9F else 0xBF := by
      constructor <;> split <;> omega
    have hvalue : (point / 0x1000 * 0x40 + (0x80 + point / 0x40 % 0x40 - 0x80)) * 0x40 +
        (0x80 + point % 0x40 - 0x80) = point := by
      omega
    rw [bytesOf, if_neg hone, if_neg htwo, if_pos hthree, List.cons_append, List.cons_append,
      List.singleton_append, decodeFrom_start hstart, decodeFrom_more (by simp) hbounds,
      decodeFrom_final rfl (by dsimp only; omega)]
    dsimp only
    rw [hvalue]
  · -- four bytes: the bounds of the second keep the point below 0x110000
    have hstart : start (0xF0 + point / 0x40000) = ([], some ⟨point / 0x40000, 3,
        if 0xF0 + point / 0x40000 = 0xF0 then 0x90 else 0x80,
        if 0xF0 + point / 0x40000 = 0xF4 then 0x8F else 0xBF⟩) := by
      rw [start, if_neg (by omega), if_neg (by omega), if_neg (by omega), if_neg (by omega),
        if_pos (by omega), Nat.add_sub_cancel_left]
    have hbounds : (if 0xF0 + point / 0x40000 = 0xF0 then 0x90 else 0x80) ≤
          0x80 + point / 0x1000 % 0x40 ∧
        0x80 + point / 0x1000 % 0x40 ≤ if 0xF0 + point / 0x40000 = 0xF4 then 0x8F else 0xBF := by
      constructor <;> split <;> omega
    have hvalue : ((point / 0x40000 * 0x40 + (0x80 + point / 0x1000 % 0x40 - 0x80)) * 0x40 +
        (0x80 + point / 0x40 % 0x40 - 0x80)) * 0x40 + (0x80 + point % 0x40 - 0x80) = point := by
      omega
    rw [bytesOf, if_neg hone, if_neg htwo, if_neg hthree, List.cons_append, List.cons_append,
      List.cons_append, List.singleton_append, decodeFrom_start hstart,
      decodeFrom_more (by simp) hbounds, decodeFrom_more (by simp) (by dsimp only; omega),
      decodeFrom_final rfl (by dsimp only; omega)]
    dsimp only
    rw [hvalue]

/-- **A text is read from what is written of it.** -/
theorem decode_encode_units (s : String) : decode (encode (units s)) = units s := by
  have hpoints : decodeFrom none ((s.toList.map Char.toNat).flatMap bytesOf) =
      s.toList.map Char.toNat := by
    induction s.toList with
    | nil => rfl
    | cons c cs ih =>
      rw [List.map_cons, List.flatMap_cons, decodeFrom_bytesOf (isScalar_toNat c), ih]
  rw [decode, encode, points_units, hpoints, List.flatMap_map, units]

/-- The bytes of a text are bytes. -/
theorem encode_units_lt (s : String) : ∀ byte ∈ encode (units s), byte < 0x100 := by
  intro byte hbyte
  rw [encode, points_units] at hbyte
  obtain ⟨point, hpoint, hmem⟩ := List.mem_flatMap.mp hbyte
  obtain ⟨c, -, rfl⟩ := List.mem_map.mp hpoint
  have hscalar := isScalar_toNat c
  unfold IsScalar at hscalar
  unfold bytesOf at hmem
  split at hmem
  · rw [List.mem_singleton] at hmem
    omega
  split at hmem
  · simp only [List.mem_cons, List.not_mem_nil, or_false] at hmem
    omega
  split at hmem
  · simp only [List.mem_cons, List.not_mem_nil, or_false] at hmem
    omega
  · simp only [List.mem_cons, List.not_mem_nil, or_false] at hmem
    omega

end Utf
