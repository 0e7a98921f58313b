import ApiManifest.Yaml.Scalar
import ApiManifest.Yaml.Tag

/-!
The tokens of a YAML stream. Collections in block style are made explicit by tokens where their
indentation starts and ends. A key without its `?` is found by the colon after it; its tokens are
then put in where it began.
-/

namespace ApiManifest.Yaml

inductive Token where
  | versionDirective (major minor : Nat)
  | tagDirective (handle : String) (expansion : List UInt8)
  | documentStart
  | documentEnd
  | blockSequenceStart
  | blockMappingStart
  | blockEnd
  | flowSequenceStart
  | flowSequenceEnd
  | flowMappingStart
  | flowMappingEnd
  | blockEntry
  | flowEntry
  | key
  | value
  | alias (name : String)
  | anchor (name : String)
  | tag (handle : String) (suffix : List UInt8)
  | scalar (style : Style) (text : String)
  | streamEnd
  | invalid
  deriving DecidableEq, Repr, Inhabited

/-- A place where a key without a `?` may have started. -/
structure KeyPlace where
  level : Nat
  token : Nat
  /-- Its column is that of the block mapping around it, so that a key has to come. -/
  required : Bool
  start : Cursor

structure Scanner where
  cursor : Cursor
  /-- The tokens that a key may still be put in before, and those after them. -/
  queue : List Token := []
  released : Nat := 0
  /-- The column of the innermost block collection, or `-1`, and those of the ones around it. -/
  indent : Int := -1
  outer : List Int := []
  keyAllowed : Bool := true
  level : Nat := 0
  /-- The places of possible keys, at most one at each level, the innermost one first. -/
  keys : List KeyPlace := []
  finished : Bool := false

namespace Scanner

def inFlow (s : Scanner) : Bool :=
  s.level > 0

def push (s : Scanner) (t : Token) : Scanner :=
  { s with queue := s.queue ++ [t] }

def count (s : Scanner) : Nat :=
  s.released + s.queue.length

def insert (s : Scanner) (place : Nat) (t : Token) : Scanner :=
  { s with queue := s.queue.insertIdx (place - s.released) t }

/-! ## Indentation -/

def closeBlocks (column : Int) : List Int → Scanner → Scanner
  | [], s => s
  | i :: outer, s =>
    if column < s.indent then closeBlocks column outer { s.push .blockEnd with indent := i, outer } else s

def unroll (column : Int) (s : Scanner) : Scanner :=
  if s.inFlow then s else closeBlocks column s.outer s

/-- Opens a block collection at `column`, if that is further in than the one around it. -/
def roll (column : Nat) (place : Nat) (t : Token) (s : Scanner) : Scanner :=
  if !s.inFlow && s.indent < column then
    { s.insert place t with indent := column, outer := s.indent :: s.outer }
  else s

/-! ## Possible keys -/

def currentKey (s : Scanner) : Option KeyPlace × List KeyPlace :=
  match s.keys with
  | k :: keys => if k.level = s.level then (some k, keys) else (none, s.keys)
  | [] => (none, [])

def dropKey (s : Scanner) : Option Scanner :=
  let (key, keys) := s.currentKey
  if key.any (·.required) then none else some { s with keys }

def saveKey (s : Scanner) : Option Scanner :=
  if s.keyAllowed then do
    let required := !s.inFlow && s.indent == s.cursor.column
    let s ← s.dropKey
    return { s with keys := { level := s.level, token := s.count, required, start := s.cursor } :: s.keys }
  else some s

/-- A key has to end on its line, and within 1024 bytes. -/
def isStale (c : Cursor) (k : KeyPlace) : Bool :=
  k.start.line < c.line || k.start.offset + 1024 < c.offset

def dropStaleKeys (s : Scanner) : Option Scanner :=
  if s.keys.any fun k => isStale s.cursor k && k.required then none
  else some { s with keys := s.keys.filter fun k => !isStale s.cursor k }

/-! ## Blanks and comments -/

/-- Goes on to the next token. Tabs are blanks only where no key without a `?` may start. A byte order
mark at the start of a line takes up a column like a blank. -/
def skipToToken : Nat → Scanner → Scanner
  | 0, s => s
  | fuel + 1, s =>
    let c := if s.cursor.column = 0 && s.cursor.startsWith '\ufeff' then s.cursor.skip 1 else s.cursor
    let tabs := s.inFlow || !s.keyAllowed
    let c := c.skipWhile fun ch => ch = ' ' || (tabs && ch = '\t')
    let c := if c.startsWith '#' then c.skipLine else c
    if c.atBreak then
      skipToToken fuel { s with cursor := c.readBreak.2, keyAllowed := s.keyAllowed || !s.inFlow }
    else { s with cursor := c }

/-! ## Directives, anchors and tags -/

def scanNumber (c : Cursor) : Option (Nat × Cursor) :=
  let ds := c.rest.takeWhile Char.isDigit
  if ds.isEmpty || ds.length > 9 then none else some (Json.digitsValue ds, c.skip ds.length)

/-- Characters of a tag besides words; in a verbatim tag and in directives also three more. -/
def isTagChar (verbatim : Bool) (c : Char) : Bool :=
  isWordChar c ||
    [';', '/', '?', ':', '@', '&', '=', '+', '$', '.', '!', '~', '*', '\'', '(', ')'].contains c ||
    (verbatim && (c = ',' || c = '[' || c = ']'))

def percentByte? : List Char → Option UInt8
  | '%' :: a :: b :: _ => do return UInt8.ofNat ((← Json.hexValue a) * 16 + (← Json.hexValue b))
  | _ => none

def trailingCount? (b : UInt8) : Option Nat :=
  if b < 0x80 then some 0
  else if b < 0xC0 then none
  else if b < 0xE0 then some 1
  else if b < 0xF0 then some 2
  else if b < 0xF8 then some 3
  else none

def trailingBytes : Nat → List Char → Option (List UInt8)
  | 0, _ => some []
  | n + 1, cs => do
    let b ← percentByte? cs
    if b < 0x80 || 0xC0 ≤ b then none
    else return b :: (← trailingBytes n (cs.drop 3))

def percentBytes (cs : List Char) : Option (List UInt8) := do
  let b ← percentByte? cs
  return b :: (← trailingBytes (← trailingCount? b) (cs.drop 3))

def scanTagText (verbatim : Bool) : Nat → List Char → Option (List UInt8 × Nat)
  | 0, _ => some ([], 0)
  | fuel + 1, cs => do
    let plain := cs.takeWhile (isTagChar verbatim)
    let bytes := Text.Utf8.encode (String.ofList plain)
    match cs.drop plain.length with
    | '%' :: rest =>
      let escaped ← percentBytes ('%' :: rest)
      let (more, taken) ← scanTagText verbatim fuel (cs.drop (plain.length + 3 * escaped.length))
      return (bytes ++ escaped ++ more, plain.length + 3 * escaped.length + taken)
    | _ => return (bytes, plain.length)

/-- Reads a tag handle: `!`, or a word between two of them; without the second one, the word is the
start of what follows. -/
def scanTagHandle : List Char → Option (List Char)
  | '!' :: cs =>
    let word := cs.takeWhile isWordChar
    match cs.drop word.length with
    | '!' :: _ => some ('!' :: word ++ ['!'])
    | _ => some ('!' :: word)
  | _ => none

def isNamedHandle (handle : List Char) : Bool :=
  handle.length > 1 && handle.getLast? = some '!'

def scanDirective (c : Cursor) : Option (Token × Cursor) := do
  let c := c.skip 1
  let name := c.rest.takeWhile isWordChar
  let c := c.skip name.length
  if name.isEmpty || !c.atGap then none
  let c := c.skipWhile isSpaceOrTab
  let (token, c) ← (
    if name = "YAML".toList then do
      let (major, c) ← scanNumber c
      if !c.startsWith '.' then none
      let (minor, c) ← scanNumber (c.skip 1)
      some (Token.versionDirective major minor, c)
    else if name = "TAG".toList then do
      let handle ← scanTagHandle c.rest
      if handle.length > 1 && !isNamedHandle handle then none
      let c := c.skip handle.length
      if !(c.rest.head?.any isSpaceOrTab) then none
      let c := c.skipWhile isSpaceOrTab
      let (expansion, taken) ← scanTagText true c.rest.length c.rest
      let c := c.skip taken
      if taken = 0 || !c.atGap then none
      some (Token.tagDirective (String.ofList handle) (Tag.cut expansion), c)
    else none : Option (Token × Cursor))
  let c := c.skipWhile isSpaceOrTab
  let c := if c.startsWith '#' then c.skipLine else c
  if !c.atGap then none
  return (token, c.readBreak.2)

def scanAnchorName (c : Cursor) : Option (String × Cursor) :=
  let name := (c.skip 1).rest.takeWhile isWordChar
  let c := c.skip (1 + name.length)
  let ends := c.atGap || c.rest.head?.any fun ch => ['?', ':', ',', ']', '}', '%', '@', '\x60'].contains ch
  if name.isEmpty || !ends then none else some (String.ofList name, c)

/-- Reads a tag: its handle, empty in a verbatim tag and in a lone `!`, and what follows it. -/
def scanTag (flow : Bool) (c : Cursor) : Option (Token × Cursor) := do
  let (handle, suffix, taken) ← (
    match c.rest with
    | '!' :: '<' :: cs => do
      let (name, taken) ← scanTagText true cs.length cs
      match cs.drop taken with
      | '>' :: _ => if taken = 0 then none else some ([], Tag.cut name, taken + 3)
      | _ => none
    | cs => do
      let handle ← scanTagHandle cs
      let (name, taken) ← scanTagText false cs.length (cs.drop handle.length)
      let all := handle.length + taken
      if isNamedHandle handle then if taken = 0 then none else some (handle, Tag.cut name, all)
      else
        let name := Tag.cut (Text.Utf8.encode (String.ofList (handle.drop 1)) ++ name)
        if name.isEmpty then some ([], [0x21], all) else some (['!'], name, all)
    : Option (List Char × List UInt8 × Nat))
  let c := c.skip taken
  if !c.atGap && !(flow && c.startsWith ',') then none
  return (.tag (String.ofList handle) suffix, c)

/-! ## One token -/

def flowSign (s : Scanner) (t : Token) (keyAllowed : Bool) : Scanner :=
  { s.push t with cursor := s.cursor.skip 1, keyAllowed }

def fetchBlockEntry (s : Scanner) : Option Scanner := do
  if !s.inFlow && !s.keyAllowed then none
  let s := s.roll s.cursor.column s.count .blockSequenceStart
  return (← s.dropKey).flowSign .blockEntry true

def fetchKey (s : Scanner) : Option Scanner := do
  if !s.inFlow && !s.keyAllowed then none
  let s := s.roll s.cursor.column s.count .blockMappingStart
  let s ← s.dropKey
  return s.flowSign .key (!s.inFlow)

def fetchValue (s : Scanner) : Option Scanner :=
  match s.currentKey with
  | (some k, keys) =>
    let s := (s.insert k.token .key).roll k.start.column k.token .blockMappingStart
    some ({ s with keys }.flowSign .value false)
  | (none, _) =>
    if !s.inFlow && !s.keyAllowed then none
    else
      let s := s.roll s.cursor.column s.count .blockMappingStart
      some (s.flowSign .value (!s.inFlow))

def fetchNode (s : Scanner) (scan : Cursor → Option (Token × Cursor)) : Option Scanner := do
  let s ← s.saveKey
  let (t, cursor) ← scan s.cursor
  return { s.push t with cursor, keyAllowed := false }

def fetchBlockScalar (fuel : Nat) (style : Style) (s : Scanner) : Option Scanner := do
  let s ← s.dropKey
  let (text, cursor) ← scanBlock (style == .folded) s.indent fuel (s.cursor.skip 1)
  return { s.push (.scalar style (String.ofList text)) with cursor, keyAllowed := true }

def fetchPlain (fuel : Nat) (s : Scanner) : Option Scanner := do
  let s ← s.saveKey
  let (text, broken, cursor) ← scanPlain s.inFlow (s.indent + 1).toNat fuel {} s.cursor
  return { s.push (.scalar .plain (String.ofList text)) with cursor, keyAllowed := broken }

def startsPlain (flow : Bool) (c : Char) (next : Option Char) : Bool :=
  let indicators :=
    ['-', '?', ':', ',', '[', ']', '{', '}', '#', '&', '*', '!', '|', '>', '\'', '"', '%', '@', '\x60']
  !(isGap (some c) || indicators.contains c) || (c = '-' && !(next.any isSpaceOrTab)) ||
    (!flow && (c = '?' || c = ':') && !isGap next)

/-- Reads the token that starts here; `fuel` is more than the number of characters. -/
def fetch (fuel : Nat) (s : Scanner) : Option Scanner := do
  let s ← (skipToToken fuel s).dropStaleKeys
  let s := s.unroll s.cursor.column
  let c := s.cursor
  match c.rest with
  | [] =>
    let s ← (s.unroll (-1)).dropKey
    return { s.push .streamEnd with cursor := c.endLine, finished := true }
  | ch :: _ =>
    let next := c.peek? 1
    if c.column = 0 && ch = '%' then
      let s ← (s.unroll (-1)).dropKey
      let (t, cursor) ← scanDirective c
      return { s.push t with cursor, keyAllowed := false }
    else if c.atDocumentMark then
      let s ← (s.unroll (-1)).dropKey
      let t := if ch = '-' then Token.documentStart else .documentEnd
      return { s.push t with cursor := c.skip 3, keyAllowed := false }
    else if ch = '[' || ch = '{' then
      let s ← s.saveKey
      let t := if ch = '[' then Token.flowSequenceStart else .flowMappingStart
      return { s with level := s.level + 1 }.flowSign t true
    else if ch = ']' || ch = '}' then
      let s ← s.dropKey
      let t := if ch = ']' then Token.flowSequenceEnd else .flowMappingEnd
      return { s with level := s.level - 1 }.flowSign t false
    else if ch = ',' then return (← s.dropKey).flowSign .flowEntry true
    else if ch = '-' && isGap next then s.fetchBlockEntry
    else if ch = '?' && (s.inFlow || isGap next) then s.fetchKey
    else if ch = ':' && (s.inFlow || isGap next) then s.fetchValue
    else if ch = '*' then s.fetchNode fun c => (scanAnchorName c).map fun (n, c) => (.alias n, c)
    else if ch = '&' then s.fetchNode fun c => (scanAnchorName c).map fun (n, c) => (.anchor n, c)
    else if ch = '!' then s.fetchNode (scanTag s.inFlow)
    else if ch = '|' && !s.inFlow then s.fetchBlockScalar fuel .literal
    else if ch = '>' && !s.inFlow then s.fetchBlockScalar fuel .folded
    else if ch = '\'' || ch = '"' then
      s.fetchNode fun c =>
        (scanQuoted (ch = '\'') fuel (c.skip 1)).map fun (text, c) =>
          (.scalar .quoted (String.ofList text), c)
    else if startsPlain s.inFlow ch next then s.fetchPlain fuel
    else none

def mayStartKey (s : Scanner) : Bool :=
  s.keys.any fun k => k.token == s.released

/-- Reads tokens to the end of the stream, or up to a fault. A token is released once no key can be put in
before it any more; `size` is more than the number of characters. -/
def run (size : Nat) : Nat → Scanner → List Token
  | 0, _ => [.invalid]
  | fuel + 1, s =>
    match s.queue with
    | [] =>
      if s.finished then []
      else
        match s.fetch size with
        | none => [.invalid]
        | some s => run size fuel s
    | t :: queue =>
      match s.dropStaleKeys with
      | none => [.invalid]
      | some s =>
        if s.mayStartKey then
          match s.fetch size with
          | none => [.invalid]
          | some s => run size fuel s
        else t :: run size fuel { s with queue, released := s.released + 1 }

end Scanner

/-- The tokens of a stream, the last one being its end or the mark of a fault. Every token but those of the
end takes at least one character, and brings at most three others with it. -/
def tokens (cs : List Char) : List Token :=
  Scanner.run (cs.length + 1) (8 * (cs.length + 3)) { cursor := { rest := cs } }

end ApiManifest.Yaml
