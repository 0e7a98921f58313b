import ApiManifest.Json.Value

/-!
Reading JSON text. Members keep the order in which they are written.
-/

namespace ApiManifest.Json

def skipBlanks (cs : List Char) : List Char :=
  cs.dropWhile fun c => c = ' ' || c = '\n' || c = '\t' || c = '\r'

def hexValue (c : Char) : Option Nat :=
  if '0' ≤ c && c ≤ '9' then some (c.toNat - '0'.toNat)
  else if 'a' ≤ c && c ≤ 'f' then some (c.toNat - 'a'.toNat + 10)
  else if 'A' ≤ c && c ≤ 'F' then some (c.toNat - 'A'.toNat + 10)
  else none

def hexValue4 (a b c d : Char) : Option Nat := do
  return (← hexValue a) * 4096 + (← hexValue b) * 256 + (← hexValue c) * 16 + (← hexValue d)

def unescaped : Char → Option Char
  | '"' => some '"'
  | '\\' => some '\\'
  | '/' => some '/'
  | 'b' => some '\x08'
  | 'f' => some '\x0c'
  | 'n' => some '\n'
  | 'r' => some '\r'
  | 't' => some '\t'
  | _ => none

/-- Joins a pending first half of a surrogate pair with a code unit: what is complete, and what is
pending then. A half alone is refused. -/
def joinUnit : Option Nat → Nat → Option (List Char × Option Nat)
  | none, u =>
    if 0xD800 ≤ u && u < 0xDC00 then some ([], some u)
    else if 0xDC00 ≤ u && u < 0xE000 then none
    else some ([Char.ofNat u], none)
  | some high, u =>
    if 0xDC00 ≤ u && u < 0xE000 then some ([Char.ofNat (0x10000 + (high - 0xD800) * 0x400 + (u - 0xDC00))], none)
    else none

def readQuoted (pending : Option Nat) : List Char → Option (List Char × List Char)
  | [] => none
  | '"' :: cs => if pending.isSome then none else some ([], cs)
  | '\\' :: 'u' :: a :: b :: c :: d :: cs => do
    let (out, pending) ← joinUnit pending (← hexValue4 a b c d)
    let (text, rest) ← readQuoted pending cs
    return (out ++ text, rest)
  | '\\' :: e :: cs =>
    if pending.isSome then none
    else do
      let c ← unescaped e
      let (text, rest) ← readQuoted none cs
      return (c :: text, rest)
  | c :: cs =>
    if pending.isSome || c = '\\' || c.toNat < 32 then none
    else do
      let (text, rest) ← readQuoted none cs
      return (c :: text, rest)

def digitsValue (ds : List Char) : Nat :=
  ds.foldl (fun n d => n * 10 + (d.toNat - '0'.toNat)) 0

def readExponent : List Char → Option (Int × List Char)
  | [] => some (0, [])
  | c :: cs =>
    if c = 'e' || c = 'E' then
      let (negative, cs) := match cs with
        | '+' :: r => (false, r)
        | '-' :: r => (true, r)
        | r => (false, r)
      let (ds, rest) := cs.span Char.isDigit
      if ds.isEmpty then none
      else some (if negative then -(digitsValue ds : Int) else digitsValue ds, rest)
    else some (0, c :: cs)

/-- The value of the digits, after `value`, that 64 bits can hold, and the digits that are left. -/
def leadingDigits (value : Nat) : List Char → Nat × List Char
  | [] => (value, [])
  | d :: ds =>
    let next := value * 10 + (d.toNat - '0'.toNat)
    if next < Nat.pow 2 64 then leadingDigits next ds else (value, d :: ds)

/-- The double for a decimal: that of its leading digits, scaled by a power of ten. No more than 64 bits
of digits count, and three divisions make nought of any of these. -/
def readDouble (negative : Bool) (whole fraction : List Char) (exponent : Int) : Option Double := do
  let (digits, left) := leadingDigits 0 whole
  let (digits, unread) := leadingDigits digits fraction
  let places := fraction.length - unread.length
  Double.scaleTen 4 (← Double.ofFraction negative digits 1) (exponent + left.length - places)

/-- A number: whole ones of at most 64 bits stay whole, all others are doubles. -/
def readNumber (cs : List Char) : Option (Number × List Char) := do
  let (negative, cs) := match cs with
    | '-' :: r => (true, r)
    | r => (false, r)
  let (whole, cs) := cs.span Char.isDigit
  if whole.isEmpty || (whole.head? = some '0' && whole.length ≠ 1) then none
  let (fraction, cs) ← match cs with
    | '.' :: r =>
      let (ds, r) := r.span Char.isDigit
      if ds.isEmpty then none else some (ds, r)
    | r => some ([], r)
  let (exponent, rest) ← readExponent cs
  let value := digitsValue whole
  let isWhole := fraction.isEmpty && cs.length = rest.length
  if isWhole && !negative && value < Nat.pow 2 64 then return (.int value, rest)
  if isWhole && negative && value ≠ 0 && value ≤ Nat.pow 2 63 then return (.int (-(value : Int)), rest)
  return (.double (← readDouble negative whole fraction exponent), rest)

mutual
def readValue : Nat → List Char → Option (Json × List Char)
  | 0, _ => none
  | fuel + 1, cs =>
    match cs with
    | 'n' :: 'u' :: 'l' :: 'l' :: r => some (.null, r)
    | 't' :: 'r' :: 'u' :: 'e' :: r => some (.bool true, r)
    | 'f' :: 'a' :: 'l' :: 's' :: 'e' :: r => some (.bool false, r)
    | '"' :: r => (readQuoted none r).map fun (text, r) => (.string (String.ofList text), r)
    | '[' :: r =>
      match skipBlanks r with
      | ']' :: r => some (.array [], r)
      | r => (readItems fuel r).map fun (items, r) => (.array items, r)
    | '{' :: r =>
      match skipBlanks r with
      | '}' :: r => some (.object [], r)
      | r => (readMembers fuel r).map fun (members, r) => (.object members, r)
    | cs => (readNumber cs).map fun (n, r) => (.number n, r)

def readItems : Nat → List Char → Option (List Json × List Char)
  | 0, _ => none
  | fuel + 1, cs => do
    let (item, cs) ← readValue fuel (skipBlanks cs)
    match skipBlanks cs with
    | ',' :: r =>
      let (items, r) ← readItems fuel r
      return (item :: items, r)
    | ']' :: r => return ([item], r)
    | _ => none

def readMembers : Nat → List Char → Option (List (String × Json) × List Char)
  | 0, _ => none
  | fuel + 1, cs => do
    match skipBlanks cs with
    | '"' :: r =>
      let (key, r) ← readQuoted none r
      match skipBlanks r with
      | ':' :: r =>
        let (value, r) ← readValue fuel (skipBlanks r)
        let entry := (String.ofList key, value)
        match skipBlanks r with
        | ',' :: r =>
          let (members, r) ← readMembers fuel r
          return (entry :: members, r)
        | '}' :: r => return ([entry], r)
        | _ => none
      | _ => none
    | _ => none
end

def parse? (s : String) : Option Json := do
  let cs := s.toList
  let (value, rest) ← readValue (2 * cs.length + 2) (skipBlanks cs)
  if (skipBlanks rest).isEmpty then return value else none

end ApiManifest.Json
