import ApiManifest.Text.Split

/-!
A place in a YAML stream, and the classes of characters that its grammar speaks of.
-/

namespace ApiManifest.Yaml

/-- Line feed, carriage return, next line, line separator and paragraph separator. -/
def isBreak (c : Char) : Bool :=
  c = '\n' || c = '\r' || c.toNat = 0x85 || c.toNat = 0x2028 || c.toNat = 0x2029

def isSpaceOrTab (c : Char) : Bool :=
  c = ' ' || c = '\t'

def isGap : Option Char → Bool
  | none => true
  | some c => isSpaceOrTab c || isBreak c

def isPrintable (c : Char) : Bool :=
  let n := c.toNat
  n = 0x09 || n = 0x0A || n = 0x0D || (0x20 ≤ n && n ≤ 0x7E) || n = 0x85 || (0xA0 ≤ n && n ≤ 0xD7FF) ||
    (0xE000 ≤ n && n ≤ 0xFFFD) || 0x10000 ≤ n

def isWordChar (c : Char) : Bool :=
  c.isAlphanum || c = '_' || c = '-'

/-- The indicators of flow collections, which end a plain scalar inside of one. -/
def isFlowIndicator (c : Char) : Bool :=
  c = ',' || c = '[' || c = ']' || c = '{' || c = '}'

def byteCount : List Char → Nat
  | [] => 0
  | c :: cs => c.utf8Size + byteCount cs

structure Cursor where
  rest : List Char
  offset : Nat := 0
  line : Nat := 0
  column : Nat := 0
  deriving Inhabited

namespace Cursor

def peek? (c : Cursor) (n : Nat) : Option Char :=
  c.rest[n]?

def startsWith (c : Cursor) (ch : Char) : Bool :=
  c.peek? 0 == some ch

def skip (c : Cursor) (n : Nat) : Cursor :=
  { c with rest := c.rest.drop n, offset := c.offset + byteCount (c.rest.take n), column := c.column + n }

def skipWhile (c : Cursor) (p : Char → Bool) : Cursor :=
  c.skip (c.rest.takeWhile p).length

/-- Reads a line break: what it counts for in a scalar, and the start of the next line. -/
def readBreak (c : Cursor) : List Char × Cursor :=
  let next (bytes : Nat) (rest : List Char) : Cursor :=
    { rest, offset := c.offset + bytes, line := c.line + 1, column := 0 }
  match c.rest with
  | '\r' :: '\n' :: rest => (['\n'], next 2 rest)
  | ch :: rest =>
    (if ch.toNat = 0x2028 || ch.toNat = 0x2029 then [ch] else ['\n'], next ch.utf8Size rest)
  | [] => ([], c)

def atBreak (c : Cursor) : Bool :=
  c.rest.head?.any isBreak

def atGap (c : Cursor) : Bool :=
  isGap c.rest.head?

def skipLine (c : Cursor) : Cursor :=
  c.skipWhile fun ch => !isBreak ch

/-- The start of the line after the one that ends here, if that has any characters. -/
def endLine (c : Cursor) : Cursor :=
  if c.column = 0 then c else { c with line := c.line + 1, column := 0 }

def atMark (c : Cursor) (mark : List Char) : Bool :=
  c.column == 0 &&
    match Text.dropFront? mark c.rest with
    | some rest => isGap rest.head?
    | none => false

def atDocumentMark (c : Cursor) : Bool :=
  c.atMark ['-', '-', '-'] || c.atMark ['.', '.', '.']

end Cursor

end ApiManifest.Yaml
