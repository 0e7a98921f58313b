import ApiManifest.Json.Reader

/-!
Plain scalars that are numbers: whole ones in four bases, and decimal fractions.
-/

namespace ApiManifest.Yaml

/-- A number; zero as a fraction has no sign. -/
inductive Number where
  | whole (i : Int)
  | fraction (d : Json.Double)
  | infinite (negative : Bool)
  | notANumber
  deriving DecidableEq, Repr

namespace Number

/-! ## Whole numbers -/

def ofDigits? (base : Nat) (cs : List Char) : Option Nat :=
  if cs.isEmpty then none
  else
    cs.foldlM
      (fun n c => do
        let d ← Json.hexValue c
        if d < base then some (n * base + d) else none)
      0

/-- More than one digit, the first one a zero: no number, whatever its sign. -/
def isZeroPadded (cs : List Char) : Bool :=
  match cs with
  | '0' :: c :: cs => (c :: cs).all Char.isDigit
  | _ => false

def natural? : List Char → Option Nat
  | '0' :: 'x' :: cs => ofDigits? 16 cs
  | '0' :: 'o' :: cs => ofDigits? 8 cs
  | '0' :: 'b' :: cs => ofDigits? 2 cs
  | cs => if isZeroPadded cs then none else ofDigits? 10 cs

def whole? : List Char → Option Int
  | '-' :: cs => (natural? cs).map fun n => -(n : Int)
  | '+' :: cs => (natural? cs).map fun n => (n : Int)
  | cs => (natural? cs).map fun n => (n : Int)

/-- Do so many bits hold the number, one of them for the sign of a negative one? -/
def fits (bits : Nat) (i : Int) : Bool :=
  -(Nat.pow 2 (bits - 1) : Int) ≤ i && i < Nat.pow 2 bits

/-! ## Fractions -/

def decimal? (cs : List Char) : Option Json.Decimal := do
  let (before, cs) := cs.span Char.isDigit
  let (after, cs) := match cs with
    | '.' :: cs => cs.span Char.isDigit
    | cs => ([], cs)
  if before.isEmpty && after.isEmpty then none
  let (exponent, rest) ← Json.readExponent cs
  if rest.isEmpty then
    some { digits := Json.digitsValue (before ++ after), exponent := exponent - after.length }
  else none

def finite? (negative : Bool) (cs : List Char) : Option Number := do
  let d ← Json.Double.ofDecimal negative (← decimal? cs)
  return .fraction (if d.isZero then ⟨0⟩ else d)

def isInfinity (cs : List Char) : Bool :=
  cs = ['.', 'i', 'n', 'f'] || cs = ['.', 'I', 'n', 'f'] || cs = ['.', 'I', 'N', 'F']

def isNotANumber (cs : List Char) : Bool :=
  cs = ['.', 'n', 'a', 'n'] || cs = ['.', 'N', 'a', 'N'] || cs = ['.', 'N', 'A', 'N']

def fraction? : List Char → Option Number
  | '-' :: cs => if isInfinity cs then some (.infinite true) else finite? true cs
  | '+' :: cs => if isInfinity cs then some (.infinite false) else finite? false cs
  | cs =>
    if isInfinity cs then some (.infinite false)
    else if isNotANumber cs then some .notANumber
    else finite? false cs

def isPadded : List Char → Bool
  | '-' :: cs => isZeroPadded cs
  | '+' :: cs => isZeroPadded cs
  | cs => isZeroPadded cs

end Number

end ApiManifest.Yaml
