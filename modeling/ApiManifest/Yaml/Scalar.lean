import ApiManifest.Yaml.Cursor
import ApiManifest.Json.Reader

/-!
Reading scalars: plain, quoted and block ones, with their line folding.
-/

namespace ApiManifest.Yaml

inductive Style where
  | plain
  | quoted
  | literal
  | folded
  deriving DecidableEq, Repr

/-! ## Folding -/

structure Gap where
  broken : Bool := false
  blanks : List Char := []
  first : List Char := []
  more : List Char := []

namespace Gap

/-- What a gap counts for: its blanks on one line; over lines, a space for one break, and the breaks
after the first for several. -/
def text (g : Gap) : List Char :=
  if g.broken then
    if g.first = ['\n'] then if g.more.isEmpty then [' '] else g.more
    else g.first ++ g.more
  else g.blanks

/-- Reads the blanks and line breaks from within a line after the first: the breaks alone. No tab may
stand before the column `indent`. -/
def scanBreaks (indent : Nat) : Nat → Cursor → Option (List Char × Cursor)
  | 0, c => some ([], c)
  | fuel + 1, c =>
    let blanks := c.rest.takeWhile isSpaceOrTab
    if (blanks.take (indent - c.column)).contains '\t' then none
    else do
      let c := c.skip blanks.length
      if !c.atBreak then return ([], c)
      let (b, c) := c.readBreak
      let (more, c) ← scanBreaks indent fuel c
      return (b ++ more, c)

def scan (indent fuel : Nat) (c : Cursor) : Option (Gap × Cursor) := do
  let blanks := c.rest.takeWhile isSpaceOrTab
  let c := c.skip blanks.length
  if !c.atBreak then return ({ blanks }, c)
  let (first, c) := c.readBreak
  let (more, c) ← scanBreaks indent fuel c
  return ({ broken := true, first, more }, c)

end Gap

/-! ## Plain scalars -/

/-- The word of a plain scalar that comes next. In a flow collection its indicators end the word, and a
colon may not stand before one of them. -/
def plainWord (flow : Bool) : List Char → Option (List Char)
  | [] => some []
  | c :: cs =>
    let next := cs.head?
    if isGap (some c) then some []
    else if flow && c = ':' && next.any (fun n => isFlowIndicator n || n = '?') then none
    else if (c = ':' && isGap next) || (flow && isFlowIndicator c) then some []
    else (plainWord flow cs).map (c :: ·)

/-- Reads what follows a gap in a plain scalar whose lines start at column `indent` or after it; in a flow
collection the column does not matter. Tells also whether a line break was read after its last word. -/
def scanPlain (flow : Bool) (indent : Nat) : Nat → Gap → Cursor → Option (List Char × Bool × Cursor)
  | 0, g, c => some ([], g.broken, c)
  | fuel + 1, g, c =>
    if c.atDocumentMark || c.startsWith '#' then some ([], g.broken, c)
    else do
      let word ← plainWord flow c.rest
      if word.isEmpty then return ([], g.broken, c)
      let text := g.text ++ word
      let c := c.skip word.length
      if !c.atGap || c.rest.isEmpty then return (text, false, c)
      let (g, c) ← Gap.scan indent fuel c
      if !flow && c.column < indent then return (text, g.broken, c)
      let (more, broken, c) ← scanPlain flow indent fuel g c
      return (text ++ more, broken, c)

/-! ## Quoted scalars -/

/-- The characters up to a gap or the closing quote, a doubled quote standing for one, and how many
they are in the text. -/
def singleQuotedWord : List Char → List Char × Nat
  | '\'' :: '\'' :: cs =>
    let (word, taken) := singleQuotedWord cs
    ('\'' :: word, taken + 2)
  | c :: cs =>
    if c = '\'' || isGap (some c) then ([], 0)
    else
      let (word, taken) := singleQuotedWord cs
      (c :: word, taken + 1)
  | [] => ([], 0)

def escapedChar : Char → Option Char
  | '0' => some '\x00'
  | 'a' => some '\x07'
  | 'b' => some '\x08'
  | 't' => some '\t'
  | '\t' => some '\t'
  | 'n' => some '\n'
  | 'v' => some '\x0b'
  | 'f' => some '\x0c'
  | 'r' => some '\r'
  | 'e' => some '\x1b'
  | ' ' => some ' '
  | '"' => some '"'
  | '/' => some '/'
  | '\\' => some '\\'
  | 'N' => some '\u0085'
  | '_' => some '\u00a0'
  | 'L' => some '\u2028'
  | 'P' => some '\u2029'
  | _ => none

def hexChar (digits : List Char) : Option Char := do
  let n ← digits.foldlM (fun n d => (Json.hexValue d).map (n * 16 + ·)) 0
  if (0xD800 ≤ n && n < 0xE000) || 0x110000 ≤ n then none else some (Char.ofNat n)

/-- What a double-quoted word holds up to a gap, the closing quote or a backslash at the end of a line. -/
structure QuotedWord where
  word : List Char := []
  continued : Bool := false
  taken : Nat := 0

def QuotedWord.cons (c : Char) (n : Nat) (w : QuotedWord) : QuotedWord :=
  { w with word := c :: w.word, taken := w.taken + n }

def doubleQuotedWord : List Char → Option QuotedWord
  | '\\' :: 'x' :: a :: b :: cs => do
    let c ← hexChar [a, b]
    return (← doubleQuotedWord cs).cons c 4
  | '\\' :: 'u' :: a :: b :: c :: d :: cs => do
    let c ← hexChar [a, b, c, d]
    return (← doubleQuotedWord cs).cons c 6
  | '\\' :: 'U' :: a :: b :: c :: d :: e :: f :: g :: h :: cs => do
    let c ← hexChar [a, b, c, d, e, f, g, h]
    return (← doubleQuotedWord cs).cons c 10
  | '\\' :: e :: cs =>
    if isBreak e then some { continued := true, taken := 1 }
    else do
      let c ← escapedChar e
      return (← doubleQuotedWord cs).cons c 2
  | c :: cs =>
    if c = '\\' then none
    else if c = '"' || isGap (some c) then some {}
    else do
      return (← doubleQuotedWord cs).cons c 1
  | [] => some {}

def scanQuoted (single : Bool) : Nat → Cursor → Option (List Char × Cursor)
  | 0, _ => none
  | fuel + 1, c =>
    if c.atDocumentMark || c.rest.isEmpty then none
    else do
      let { word, continued, taken } ←
        if single then
          let (word, taken) := singleQuotedWord c.rest
          some { word, taken }
        else doubleQuotedWord c.rest
      let c := c.skip taken
      if !continued && c.startsWith (if single then '\'' else '"') then return (word, c.skip 1)
      let (g, c) ← (
        if continued then do
          let (more, c) ← Gap.scanBreaks 0 fuel c.readBreak.2
          some ({ broken := true, more }, c)
        else Gap.scan 0 fuel c : Option (Gap × Cursor))
      let (more, c) ← scanQuoted single fuel c
      return (word ++ g.text ++ more, c)

/-! ## Block scalars -/

/-- What the header of a block scalar says: which of the last breaks to keep, and how far the text is
indented beyond its surroundings. -/
structure BlockHeader where
  keepAll : Bool := false
  keepNone : Bool := false
  indent : Option Nat := none

namespace BlockHeader

def chomp (h : BlockHeader) (c : Char) : BlockHeader :=
  if c = '+' then { h with keepAll := true } else { h with keepNone := true }

def scan (cs : List Char) : Option (BlockHeader × Nat) :=
  let sign? (c : Char) : Bool := c = '+' || c = '-'
  let indent? (c : Char) : Option Nat := if c = '0' then none else some (c.toNat - '0'.toNat)
  match cs.head?, cs.tail.head? with
  | some c, next =>
    if sign? c then
      match next with
      | some d =>
        if d.isDigit then (indent? d).map fun n => ({ chomp {} c with indent := some n }, 2)
        else some (chomp {} c, 1)
      | none => some (chomp {} c, 1)
    else if c.isDigit then
      (indent? c).map fun n =>
        match next with
        | some d => if sign? d then ({ chomp {} d with indent := some n }, 2) else ({ indent := some n }, 1)
        | none => ({ indent := some n }, 1)
    else some ({}, 0)
  | none, _ => some ({}, 0)

end BlockHeader

/-- Reads indentation and empty lines. While the indentation is not known (zero), all spaces count
as such. Gives the breaks, the widest indentation met and the place after them. -/
def scanEmptyLines (indent : Nat) : Nat → Cursor → Option (List Char × Nat × Cursor)
  | 0, c => some ([], 0, c)
  | fuel + 1, c =>
    let spaces := (c.rest.takeWhile (· = ' ')).length
    let c := c.skip (if indent = 0 then spaces else min spaces (indent - c.column))
    if (indent = 0 || c.column < indent) && c.startsWith '\t' then none
    else if c.atBreak then do
      let (b, next) := c.readBreak
      let (more, widest, next) ← scanEmptyLines indent fuel next
      return (b ++ more, max c.column widest, next)
    else some ([], c.column, c)

structure LineEnd where
  lastBreak : List Char := []
  emptyLines : List Char := []
  blankStart : Bool := false

/-- Reads the lines that are indented by `indent`: the text up to the end of the last one, and that end.
In a folded scalar, a single break between two lines that start with no blank counts as a space. -/
def scanBlockLines (folded : Bool) (indent : Nat) :
    Nat → LineEnd → Cursor → Option (List Char × LineEnd × Cursor)
  | 0, e, c => some ([], e, c)
  | fuel + 1, e, c =>
    if c.column ≠ indent || c.rest.isEmpty then some ([], e, c)
    else do
      let blankStart := c.rest.head?.any isSpaceOrTab
      let joined :=
        if folded && e.lastBreak.head? = some '\n' && !e.blankStart && !blankStart then
          if e.emptyLines.isEmpty then [' '] else []
        else e.lastBreak
      let text := joined ++ e.emptyLines ++ c.rest.takeWhile fun ch => !isBreak ch
      let (lastBreak, c) := (c.skipLine).readBreak
      let (emptyLines, _, c) ← scanEmptyLines indent fuel c
      let (more, e, c) ← scanBlockLines folded indent fuel { lastBreak, emptyLines, blankStart } c
      return (text ++ more, e, c)

/-- Reads a block scalar from after its indicator; `outer` is the column of the collection that it
stands in, or `-1`, and `fuel` bounds the number of lines. -/
def scanBlock (folded : Bool) (outer : Int) (fuel : Nat) (c : Cursor) : Option (List Char × Cursor) := do
  let (header, taken) ← BlockHeader.scan c.rest
  let c := (c.skip taken).skipWhile isSpaceOrTab
  let c := if c.startsWith '#' then c.skipLine else c
  if !c.atGap then none
  let c := c.readBreak.2
  let given := match header.indent with
    | some n => if 0 ≤ outer then outer.toNat + n else n
    | none => 0
  let (emptyLines, widest, c) ← scanEmptyLines given fuel c
  let indent := if given = 0 then max (max widest (outer + 1).toNat) 1 else given
  let (text, e, c) ← scanBlockLines folded indent fuel { emptyLines } c
  let text := if header.keepNone then text else text ++ e.lastBreak
  return (if header.keepAll then text ++ e.emptyLines else text, c)

end ApiManifest.Yaml
