/-!
Reading UTF-8: each character, or one mark for each maximal piece that can start no character.
-/

namespace ApiManifest.Text.Utf8

/-- A character of which some bytes have been read: its bits so far, how many bytes are to come, and
the bounds of the next one. -/
structure Pending where
  bits : Nat
  left : Nat
  low : UInt8 := 0x80
  high : UInt8 := 0xBF

/-- What a byte at the start of a character means. Overlong forms, surrogates and code points
over 10FFFF are refused here and by the bounds of the second byte. -/
def start (b : UInt8) : List (Option Char) × Option Pending :=
  if b < 0x80 then ([some (Char.ofNat b.toNat)], none)
  else if b < 0xC2 then ([none], none)
  else if b < 0xE0 then ([], some { bits := b.toNat - 0xC0, left := 1 })
  else if b == 0xE0 then ([], some { bits := 0, left := 2, low := 0xA0 })
  else if b == 0xED then ([], some { bits := 0xD, left := 2, high := 0x9F })
  else if b < 0xF0 then ([], some { bits := b.toNat - 0xE0, left := 2 })
  else if b == 0xF0 then ([], some { bits := 0, left := 3, low := 0x90 })
  else if b < 0xF4 then ([], some { bits := b.toNat - 0xF0, left := 3 })
  else if b == 0xF4 then ([], some { bits := 4, left := 3, high := 0x8F })
  else ([none], none)

def step : Option Pending → UInt8 → List (Option Char) × Option Pending
  | none, b => start b
  | some p, b =>
    if p.low ≤ b && b ≤ p.high then
      let bits := p.bits * 64 + (b.toNat - 0x80)
      if p.left == 1 then ([some (Char.ofNat bits)], none) else ([], some { bits, left := p.left - 1 })
    else
      let (out, q) := start b
      (none :: out, q)

def decodeFrom (p : Option Pending) : List UInt8 → List (Option Char)
  | [] => if p.isSome then [none] else []
  | b :: bs =>
    let (out, q) := step p b
    out ++ decodeFrom q bs

/-- The characters of the bytes, with `none` for each piece that is not UTF-8. -/
def decode (bs : List UInt8) : List (Option Char) :=
  decodeFrom none bs

/-- The characters, with the replacement character for each piece that is not UTF-8. -/
def decodeLossy (bs : List UInt8) : List Char :=
  (decode bs).map fun c => c.getD '\ufffd'

def decode? (bs : List UInt8) : Option (List Char) :=
  (decode bs).mapM id

def encode (s : String) : List UInt8 :=
  s.toUTF8.toList

end ApiManifest.Text.Utf8
