/-!
Double-precision numbers by their bits: the double nearest to a decimal, and the shortest decimal
that reads back as the same double. All arithmetic is exact, on natural numbers.
-/

namespace ApiManifest.Json

structure Double where
  bits : UInt64
  deriving DecidableEq, Repr, Inhabited

/-- A decimal `digits × 10 ^ exponent`. -/
structure Decimal where
  digits : Nat
  exponent : Int
  deriving DecidableEq, Repr

def digitCount (n : Nat) : Nat :=
  (Nat.toDigits 10 n).length

/-- The whole number nearest to a fraction, the even one of two. -/
def roundDiv (num den : Nat) : Nat :=
  let whole := num / den
  let rest := 2 * (num % den)
  if rest < den then whole
  else if den < rest then whole + 1
  else whole + whole % 2

def scaled (base num den : Nat) (exponent : Int) : Nat × Nat :=
  if 0 ≤ exponent then (num * Nat.pow base exponent.toNat, den) else (num, den * Nat.pow base (-exponent).toNat)

namespace Double

def isNegative (d : Double) : Bool :=
  d.bits ≥ 0x8000000000000000

/-- The whole number of units, and the power of two that a unit is. -/
def magnitude (d : Double) : Nat × Int :=
  let field : Nat := (d.bits.toNat / Nat.pow 2 52) % Nat.pow 2 11
  let fraction : Nat := d.bits.toNat % Nat.pow 2 52
  if field = 0 then (fraction, -1074) else (fraction + Nat.pow 2 52, (field : Int) - 1075)

def isZero (d : Double) : Bool :=
  d.magnitude.1 == 0

def ofMagnitude (negative : Bool) (units : Nat) (exponent : Int) : Double :=
  let sign := if negative then Nat.pow 2 63 else 0
  if units < Nat.pow 2 52 then ⟨UInt64.ofNat (sign + units)⟩
  else ⟨UInt64.ofNat (sign + (exponent + 1075).toNat * Nat.pow 2 52 + (units - Nat.pow 2 52))⟩

/-- The double nearest to a fraction, an even one of two; nothing when the fraction is beyond the
largest double by half a unit or more. -/
def ofFraction (negative : Bool) (num den : Nat) : Option Double :=
  if num = 0 then some (ofMagnitude negative 0 0)
  else
    let guess : Int := (Nat.log2 num : Int) - Nat.log2 den - 52
    let unitsAt (exponent : Int) : Nat × Nat := scaled 2 num den (-exponent)
    let low := unitsAt guess
    let exponent := if low.1 < low.2 * Nat.pow 2 52 then guess - 1 else guess
    let exponent := if exponent < -1074 then -1074 else exponent
    let (num, den) := unitsAt exponent
    let units := roundDiv num den
    let (units, exponent) := if units = Nat.pow 2 53 then (Nat.pow 2 52, exponent + 1) else (units, exponent)
    if exponent > 971 then none else some (ofMagnitude negative units exponent)

def ofDecimal (negative : Bool) (d : Decimal) : Option Double :=
  let size : Int := digitCount d.digits + d.exponent
  if d.digits = 0 || size < -330 then some (ofMagnitude negative 0 0)
  else if size > 310 then none
  else
    let (num, den) := scaled 10 d.digits 1 d.exponent
    ofFraction negative num den

def fraction (d : Double) : Nat × Nat :=
  let (units, unit) := d.magnitude
  scaled 2 units 1 unit

def maxTenExponent : Nat := 308

/-- The nearest double to the number times, or divided by, the nearest double to a power of ten. -/
def scaleOnce (d : Double) (exponent : Int) : Option Double := do
  let (powerNum, powerDen) := (← ofFraction false (Nat.pow 10 exponent.natAbs) 1).fraction
  let (num, den) := d.fraction
  if 0 ≤ exponent then ofFraction d.isNegative (num * powerNum) (den * powerDen)
  else ofFraction d.isNegative (num * powerDen) (den * powerNum)

/-- The number times a power of ten, rounded after each of at most so many divisions by the highest
power and after the last step. Zero stays zero, and nothing is beyond the largest double. -/
def scaleTen : Nat → Double → Int → Option Double
  | 0, d, _ => some d
  | steps + 1, d, exponent =>
    if exponent.natAbs ≤ maxTenExponent then d.scaleOnce exponent
    else if d.isZero then some d
    else if 0 ≤ exponent then none
    else do scaleTen steps (← d.scaleOnce (-(maxTenExponent : Int))) (exponent + maxTenExponent)

def leadingExponent (num den : Nat) : Int :=
  if den ≤ num then (digitCount (num / den) : Int) - 1 else -(digitCount ((den - 1) / num) : Int)

/-- Trailing zeros moved into the exponent. -/
def stripZeros : Nat → Decimal → Decimal
  | 0, d => d
  | fuel + 1, d =>
    if d.digits ≠ 0 && d.digits % 10 = 0 then stripZeros fuel ⟨d.digits / 10, d.exponent + 1⟩ else d

/-- The nearest decimal on the grid of `10 ^ exponent` among the two neighbours of the number that
read back as it, if one does. The number is `4 * units` quarter units. -/
def onGrid (units : Nat) (unit : Int) (exponent : Int) : Option Decimal :=
  let below := if units = Nat.pow 2 52 && unit > -1074 then 1 else 2
  let (valueNum, valueDen) := scaled 2 (4 * units) 4 unit
  let reads (n : Nat) : Bool :=
    let (num, den) := scaled 10 n 1 exponent
    let (lowNum, lowDen) := scaled 2 (4 * units - below) 4 unit
    let (highNum, highDen) := scaled 2 (4 * units + 2) 4 unit
    if units % 2 = 0 then lowNum * den ≤ num * lowDen && num * highDen ≤ highNum * den
    else lowNum * den < num * lowDen && num * highDen < highNum * den
  let (num, den) := scaled 10 valueNum valueDen (-exponent)
  let floor := num / den
  match reads floor, reads (floor + 1) with
  | true, true => some ⟨roundDiv num den, exponent⟩
  | true, false => some ⟨floor, exponent⟩
  | false, true => some ⟨floor + 1, exponent⟩
  | false, false => none

/-- The decimal with the fewest digits, up to seventeen, that reads back as the number without its
sign; of several the nearest. -/
def shortest (d : Double) : Decimal :=
  let (units, unit) := d.magnitude
  if units = 0 then ⟨0, 0⟩
  else
    let (num, den) := scaled 2 units 1 unit
    let lead := leadingExponent num den
    let found := (List.range 17).findSome? fun (n : Nat) => onGrid units unit (lead - n)
    stripZeros 17 (found.getD ⟨0, 0⟩)

/-- Numbers whose point would stand within sixteen digits, or at most five places before the first
digit, are written out; all others with an exponent, which always has a sign. A point is always written,
or an exponent. -/
def toText (d : Double) : String :=
  let sign := if d.isNegative then "-" else ""
  let dec := d.shortest
  let digits := toString dec.digits
  let point : Int := digits.length + dec.exponent
  let zeros (n : Int) : String := String.ofList (List.replicate n.toNat '0')
  sign ++
    if dec.digits = 0 then "0.0"
    else if 0 ≤ dec.exponent && point ≤ 16 then digits ++ zeros dec.exponent ++ ".0"
    else if 0 < point && point ≤ 16 then
      String.ofList (digits.toList.take point.toNat) ++ "." ++ String.ofList (digits.toList.drop point.toNat)
    else if -5 < point && point ≤ 0 then "0." ++ zeros (-point) ++ digits
    else
      let rest := String.ofList (digits.toList.drop 1)
      String.ofList (digits.toList.take 1) ++ (if rest = "" then "" else "." ++ rest) ++
        (if 0 < point then "e+" else "e") ++ toString (point - 1)

end Double

end ApiManifest.Json
