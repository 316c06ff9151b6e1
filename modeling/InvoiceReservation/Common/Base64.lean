import Mathlib.Data.List.Basic
import Mathlib.Data.List.TakeWhile
import Mathlib.Tactic.NormNum
/-!
# Base64url

Three bytes are four sextets, and a sextet is a symbol of the alphabet. A
reader looks at the low byte of each unit and ends at the first `=`. Before
it, it takes the symbols of either alphabet and passes over anything else; a
byte of which it has not all bits is dropped.
-/

namespace Base64

/-- The symbol of a sextet in the alphabet for URLs. -/
def symbol (sextet : ℕ) : ℕ :=
  if sextet < 26 then 0x41 + sextet
  else if sextet < 52 then 0x61 + (sextet - 26)
  else if sextet < 62 then 0x30 + (sextet - 52)
  else if sextet = 62 then 0x2D
  else 0x5F

/-- The sextet of a symbol: `-` and `+`, and `_` and `/`, are the same. -/
def sextet? (symbol : ℕ) : Option ℕ :=
  if 0x41 ≤ symbol ∧ symbol ≤ 0x5A then some (symbol - 0x41)
  else if 0x61 ≤ symbol ∧ symbol ≤ 0x7A then some (symbol - 0x61 + 26)
  else if 0x30 ≤ symbol ∧ symbol ≤ 0x39 then some (symbol - 0x30 + 52)
  else if symbol = 0x2D ∨ symbol = 0x2B then some 62
  else if symbol = 0x5F ∨ symbol = 0x2F then some 63
  else none

/-- The sextets of bytes. -/
def sextets : List ℕ → List ℕ
  | [] => []
  | [a] => [a / 4, a % 4 * 16]
  | [a, b] => [a / 4, a % 4 * 16 + b / 16, b % 16 * 4]
  | a :: b :: c :: rest =>
    a / 4 :: (a % 4 * 16 + b / 16) :: (b % 16 * 4 + c / 64) :: c % 64 :: sextets rest

/-- The bytes of sextets. -/
def bytes : List ℕ → List ℕ
  | a :: b :: c :: d :: rest =>
    (a * 4 + b / 16) :: (b % 16 * 16 + c / 4) :: (c % 4 * 64 + d) :: bytes rest
  | [a, b, c] => [a * 4 + b / 16, b % 16 * 16 + c / 4]
  | [a, b] => [a * 4 + b / 16]
  | _ => []

/-- `buffer.toString('base64url')`. -/
def encode (buffer : List ℕ) : List ℕ := (sextets buffer).map symbol

/-- `Buffer.from(s, 'base64url')`, of the UTF-16 units of a string. -/
def decode (s : List ℕ) : List ℕ :=
  bytes (((s.map (· % 0x100)).takeWhile (· ≠ 0x3D)).filterMap sextet?)

/-- Padding ends what is read, and a unit is read as its low byte. -/
example : decode [0x62, 0x6E, 0x56, 0x73, 0x3D, 0x62, 0x41] = [0x6E, 0x75, 0x6C] ∧
    decode [0x62, 0x6E, 0x56, 0x73, 0x62, 0x141] = [0x6E, 0x75, 0x6C, 0x6C] := by decide

/-! ## Round trip -/

theorem bytes_sextets {buffer : List ℕ} (h : ∀ b ∈ buffer, b < 0x100) :
    bytes (sextets buffer) = buffer := by
  fun_induction sextets buffer with
  | case1 => rfl
  | case2 a =>
    simp only [bytes]
    congr 1
    omega
  | case3 a b =>
    have hb := h b (by simp)
    simp only [bytes]
    congr 1
    · omega
    · congr 1
      omega
  | case4 a b c rest ih =>
    have hb := h b (by simp)
    have hc := h c (by simp)
    rw [bytes, ih fun x hx => h x (by simp [hx])]
    congr 1
    · omega
    · congr 1
      · omega
      · congr 1
        omega

/-- The sextets of bytes have six bits. -/
theorem sextets_lt {buffer : List ℕ} (h : ∀ b ∈ buffer, b < 0x100) :
    ∀ s ∈ sextets buffer, s < 64 := by
  fun_induction sextets buffer with
  | case1 => simp
  | case2 a =>
    have ha := h a (by simp)
    intro s hs
    simp only [List.mem_cons, List.not_mem_nil, or_false] at hs
    omega
  | case3 a b =>
    have ha := h a (by simp)
    have hb := h b (by simp)
    intro s hs
    simp only [List.mem_cons, List.not_mem_nil, or_false] at hs
    omega
  | case4 a b c rest ih =>
    have ha := h a (by simp)
    have hb := h b (by simp)
    have hc := h c (by simp)
    intro s hs
    simp only [List.mem_cons] at hs
    obtain rfl | rfl | rfl | rfl | hs := hs
    · omega
    · omega
    · omega
    · omega
    · exact ih (fun x hx => h x (by simp [hx])) s hs

/-- A sextet is read from its symbol. -/
theorem sextet?_symbol : ∀ s < 64, sextet? (symbol s) = some s := by
  decide

/-- The symbols are ASCII, and padding is none. -/
theorem symbol_lt : ∀ s < 64, symbol s < 0x80 ∧ symbol s ≠ 0x3D := by
  decide

/-- What is encoded is ASCII. -/
theorem encode_lt {buffer : List ℕ} (h : ∀ b ∈ buffer, b < 0x100) :
    ∀ unit ∈ encode buffer, unit < 0x80 := by
  intro unit hunit
  obtain ⟨s, hs, rfl⟩ := List.mem_map.mp hunit
  exact (symbol_lt s (sextets_lt h s hs)).1

/-- And has no padding. -/
theorem encode_ne_padding {buffer : List ℕ} (h : ∀ b ∈ buffer, b < 0x100) :
    ∀ unit ∈ encode buffer, unit ≠ 0x3D := by
  intro unit hunit
  obtain ⟨s, hs, rfl⟩ := List.mem_map.mp hunit
  exact (symbol_lt s (sextets_lt h s hs)).2

/-- **What is encoded is decoded.** -/
theorem decode_encode {buffer : List ℕ} (h : ∀ b ∈ buffer, b < 0x100) :
    decode (encode buffer) = buffer := by
  have hlow : (encode buffer).map (· % 0x100) = encode buffer := by
    refine (List.map_congr_left fun unit hunit => ?_).trans (List.map_id _)
    have := encode_lt h unit hunit
    exact Nat.mod_eq_of_lt (by omega)
  have hwhole : (encode buffer).takeWhile (· ≠ 0x3D) = encode buffer :=
    List.takeWhile_eq_self_iff.mpr fun unit hunit => by simpa using encode_ne_padding h unit hunit
  have hsextets : (sextets buffer).filterMap (fun s => sextet? (symbol s)) =
      (sextets buffer).filterMap some :=
    List.filterMap_congr fun s hs => sextet?_symbol s (sextets_lt h s hs)
  rw [decode, hlow, hwhole, encode, List.filterMap_map]
  rw [show sextet? ∘ symbol = fun s => sextet? (symbol s) from rfl, hsextets, List.filterMap_some]
  exact bytes_sextets h

end Base64
