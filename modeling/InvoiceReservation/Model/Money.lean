import Mathlib.Algebra.Order.Ring.Int
import Mathlib.Data.List.Basic
/-!
# Money and rates

`src/shared/money`: amounts are whole minor units, a rate is an integer
scaled by `rateScale`, and a conversion rounds half up. A `bigint` is an
`Int`; its division truncates, as `Int.tdiv` does.
-/

namespace InvoiceReservation

/-- A thrown `TypeError`. -/
structure TypeError where
  message : String
  deriving DecidableEq, Repr

/-- `Money`: minor units and a currency code. -/
structure Money where
  minor : Int
  currency : String
  deriving DecidableEq, Repr

/-- `/^[A-Z]{3}$/`. -/
def isCurrencyCode (code : String) : Bool :=
  code.toList.length == 3 && code.toList.all fun c => 'A' ≤ c && c ≤ 'Z'

/-- `currency`: a code, checked. -/
def currency (code : String) : Except TypeError String :=
  if isCurrencyCode code then .ok code else .error ⟨s!"invalid currency code: {code}"⟩

/-- `money`: an amount in a checked currency. -/
def money (minor : Int) (code : String) : Except TypeError Money :=
  match currency code with
  | .ok c => .ok ⟨minor, c⟩
  | .error e => .error e

/-- `RATE_SCALE`. -/
def rateScale : Int := 10 ^ 10

/-! ## Minor units -/

/-- `ZERO_DECIMAL`. -/
def zeroDecimal : List String := ["JPY", "KRW", "VND", "CLP", "ISK", "XOF", "XAF", "XPF"]

/-- `THREE_DECIMAL`. -/
def threeDecimal : List String := ["BHD", "IQD", "JOD", "KWD", "LYD", "OMR", "TND"]

/-- `minorUnitDigits`. No conversion asks for it. -/
def minorUnitDigits (code : String) : Nat :=
  if code ∈ zeroDecimal then 0 else if code ∈ threeDecimal then 3 else 2

/-! ## Rates -/

/-- The value of a string of decimal digits. -/
def digitsValue (cs : List Char) : Int :=
  cs.foldl (fun acc c => acc * 10 + ((c.toNat : Int) - 48)) 0

/-- `/^\d{1,10}(\.\d{1,10})?$/` with its two groups: the digits before the
point and those after it. -/
def rateParts (rate : String) : Option (List Char × List Char) :=
  let intPart := rate.toList.takeWhile (· != '.')
  let rest := rate.toList.dropWhile (· != '.')
  let fracPart := rest.drop 1
  let digits := fun (cs : List Char) =>
    cs.all (fun c => '0' ≤ c && c ≤ '9') && 1 ≤ cs.length && cs.length ≤ 10
  if digits intPart && (rest.isEmpty || digits fracPart) then some (intPart, fracPart) else none

/-- `padEnd(10, '0')`. -/
def padEnd (cs : List Char) : List Char := cs ++ List.replicate (10 - cs.length) '0'

/-- The value of a rate string times `rateScale`. -/
def rateValue (rate : String) : Option Int :=
  (rateParts rate).map fun (intPart, fracPart) => digitsValue (intPart ++ padEnd fracPart)

/-- `scaleRate`: a rate string as an integer scaled by `rateScale`, never
zero. -/
def scaleRate (rate : String) : Except TypeError Int :=
  match rateValue rate with
  | none => .error ⟨s!"invalid rate: {rate}"⟩
  | some scaled => if scaled = 0 then .error ⟨"rate must not be zero"⟩ else .ok scaled

/-! ## Conversion -/

/-- `roundHalfUp`: the quotient, rounded, ties away from zero. -/
def roundHalfUp (numerator denominator : Int) : Except TypeError Int :=
  if denominator ≤ 0 then .error ⟨"denominator must be positive"⟩
  else
    let quotient := numerator.tdiv denominator
    let remainder := numerator.tmod denominator
    let absRemainder := if remainder < 0 then -remainder else remainder
    if 2 * absRemainder ≥ denominator then
      .ok (if numerator < 0 then quotient - 1 else quotient + 1)
    else .ok quotient

/-- `ConversionOutcome`. -/
inductive ConversionOutcome
  | converted (amount : Money)
  | roundsToZero
  deriving DecidableEq, Repr

/-- `convert`: an amount at a scaled rate, or the finding that a non-zero
amount converts to nothing. -/
def convert (amount : Money) (targetCurrency : String) (scaledRate : Int) :
    Except TypeError ConversionOutcome :=
  match roundHalfUp (amount.minor * scaledRate) rateScale with
  | .error e => .error e
  | .ok result =>
    if result = 0 ∧ amount.minor ≠ 0 then .ok .roundsToZero
    else
      match money result targetCurrency with
      | .error e => .error e
      | .ok m => .ok (.converted m)

example : scaleRate "1.085" = .ok 10850000000 := by decide

/-! ## Decimal strings -/

/-- `toDecimalString`: an amount with its point, the digits padded up to one
before it. -/
def toDecimalString (a : Money) (minorUnitDigits : Nat) : String :=
  let negative := a.minor < 0
  let abs := if negative then -a.minor else a.minor
  let digits := Nat.toDigits 10 abs.toNat
  let sign := if negative then ['-'] else []
  if minorUnitDigits = 0 then String.ofList (sign ++ digits)
  else
    let padded := List.replicate (minorUnitDigits + 1 - digits.length) '0' ++ digits
    let cut := padded.length - minorUnitDigits
    String.ofList (sign ++ padded.take cut ++ '.' :: padded.drop cut)

/-- `/^-?\d{1,19}(\.\d+)?$/` with what is sliced from it: whether there is a
sign, the digits before the point and those after it. -/
def decimalParts (value : String) : Option (Bool × List Char × List Char) :=
  let negative := value.toList.head? == some '-'
  let unsigned := if negative then value.toList.drop 1 else value.toList
  let intPart := unsigned.takeWhile (· != '.')
  let rest := unsigned.dropWhile (· != '.')
  let fracPart := rest.drop 1
  let digits := fun (cs : List Char) => cs.all (fun c => '0' ≤ c && c ≤ '9') && 1 ≤ cs.length
  if digits intPart && intPart.length ≤ 19 && (rest.isEmpty || digits fracPart) then
    some (negative, intPart, fracPart)
  else none

/-- `fromDecimalString`. The cap on significant digits counts those of the
fraction as they are written. -/
def fromDecimalString (value code : String) (minorUnitDigits : Nat) : Except TypeError Money :=
  match decimalParts value with
  | none => .error ⟨s!"invalid decimal string: {value}"⟩
  | some (negative, intPart, fracPart) =>
    if fracPart.length > minorUnitDigits then
      .error ⟨s!"too many fractional digits for {minorUnitDigits}-minor-unit currency: {value}"⟩
    else
      let significantInt := intPart.dropWhile (· == '0')
      if significantInt.length + fracPart.length > 19 then
        .error ⟨s!"too many significant digits: {value}"⟩
      else
        let paddedFrac := fracPart ++ List.replicate (minorUnitDigits - fracPart.length) '0'
        let minor := digitsValue (intPart ++ paddedFrac)
        money (if negative then -minor else minor) code

end InvoiceReservation
