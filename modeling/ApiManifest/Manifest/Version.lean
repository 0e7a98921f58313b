import ApiManifest.Text.Blank
import ApiManifest.Text.Digit
import ApiManifest.Text.Split
import ApiManifest.Text.Utf8

/-!
The version of a manifest, which is looked for in its lines before anything else is read: the first
line that starts with `version:` and a `v` decides.
-/

namespace ApiManifest.Version

open Text

def supportedMajor : Nat := 2

/-- The version that a line gives: from its `v` up to the next blank. -/
def ofLine? (line : List Char) : Option (List Char) :=
  match dropFront? "version:".toList line with
  | none => none
  | some rest =>
    match rest.dropWhile (· = ' ') with
    | 'v' :: cs => some ('v' :: cs.takeWhile fun c => !isBlank c)
    | _ => none

/-- The characters after a dot and digits, if those come next. -/
def skipGroup (cs : List Char) : List Char :=
  match cs with
  | '.' :: rest => if rest.head?.any isDecimalDigit then rest.dropWhile isDecimalDigit else cs
  | _ => cs

def isSuffix : List Char → Bool
  | [] => true
  | c :: cs => (c = '-' || c = '+') && cs.all (· ≠ '\n')

/-- The number that digits make, if all are ASCII ones and no more than 64 bits are needed on the way. -/
def number? (digits : List Char) : Option Nat :=
  digits.foldlM (fun n d =>
    let next := n * 10 + (d.toNat - '0'.toNat)
    if d.isDigit && next < UInt64.size then some next else none) 0

def major? : List Char → Option Nat
  | 'v' :: cs =>
    let digits := cs.takeWhile isDecimalDigit
    let rest := skipGroup (skipGroup (cs.dropWhile isDecimalDigit))
    if digits.isEmpty || !isSuffix rest then none else number? digits
  | _ => none

/-- The lines of a manifest, each read on its own and without the blanks at its end. -/
def lines (bytes : List UInt8) : List (List Char) :=
  (splitOn 10 bytes).map fun line => trimEnd (Utf8.decodeLossy line)

def find? (bytes : List UInt8) : Option (List Char) :=
  (lines bytes).findSome? ofLine?

end ApiManifest.Version
