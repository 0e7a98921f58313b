import ApiManifest.Dict
import ApiManifest.Text.Alphanumeric
import ApiManifest.Text.Blank
import ApiManifest.Text.Split
import ApiManifest.Text.Utf8

/-!
Environment files: assignments, one a line, to variables that are not set yet. Values may be quoted, and
may name other variables after a dollar sign.
-/

namespace ApiManifest.EnvFile

open Text

/-! ## Lines -/

/-- What a line that is read up to some point is inside of. -/
inductive Inside where
  | nothing
  | blank
  | escape
  | strong
  | strongEscape
  | weak
  | weakEscape
  deriving DecidableEq, Repr

def Inside.next : Inside → Char → Inside
  | nothing, c =>
    if isBlank c && c ≠ '\n' && c ≠ '\r' then blank
    else if c = '\\' then escape else if c = '"' then weak else if c = '\'' then strong else nothing
  | blank, c => if c = '\\' then escape else if c = '"' then weak else if c = '\'' then strong else nothing
  | escape, _ => nothing
  | strong, c => if c = '\\' then strongEscape else if c = '\'' then nothing else strong
  | strongEscape, _ => strong
  | weak, c => if c = '\\' then weakEscape else if c = '"' then nothing else weak
  | weakEscape, _ => weak

/-- Reads a line: what stands before its comment, or, if it has none, what its end is inside of. -/
def scanLine (inside : Inside) : List Char → List Char × Option Inside
  | [] => ([], some inside)
  | c :: cs =>
    if inside = .blank && c = '#' then ([], none)
    else
      let (kept, after) := scanLine (inside.next c) cs
      (c :: kept, after)

def chomp (cs : List Char) : List Char :=
  match dropLast? '\n' cs with
  | some cs => (dropLast? '\r' cs).getD cs
  | none => cs

/-- Joins the lines that a quotation runs across, `before` being what is read of it. A line that cannot
be read, or a quotation that does not end, is `none`. -/
def joinLines (before : List Char) (inside : Inside) : List (Option (List Char)) → List (Option (List Char))
  | [] => if inside = .nothing then [] else [none]
  | none :: _ => [none]
  | some line :: lines =>
    if (trimStart (before ++ line)).head? = some '#' then joinLines [] .nothing lines
    else
      match scanLine inside line with
      | (kept, none) => some (before ++ kept) :: joinLines [] .nothing lines
      | (_, some .nothing) => some (chomp (before ++ line)) :: joinLines [] .nothing lines
      | (_, some inside) => joinLines (before ++ line) inside lines

def rawLines (bytes : List UInt8) : List (List UInt8) :=
  match (splitOn 10 bytes).reverse with
  | [] => []
  | last :: others => (others.map (· ++ [10])).reverse ++ (if last.isEmpty then [] else [last])

def lines (bytes : List UInt8) : List (Option (List Char)) :=
  joinLines [] .nothing ((rawLines ((dropFront? [0xEF, 0xBB, 0xBF] bytes).getD bytes)).map Utf8.decode?)

/-! ## Values -/

/-- What a character of a value belongs to. A substitution knows whether it stands in weak quotes. -/
inductive Part where
  | plain
  | strong
  | weak
  | escape (weak : Bool)
  | name (weak : Bool) (read : List Char)
  | bracedName (weak : Bool) (read : List Char)
  | ended
  deriving DecidableEq, Repr

def Part.around (weak : Bool) : Part :=
  if weak then .weak else .plain

def escapedChar? (c : Char) : Option Char :=
  if c = 'n' then some '\n'
  else if c = '\\' || c = '\'' || c = '"' || c = '$' || c = ' ' then some c
  else none

def Part.next (valueOf : String → String) : Part → Char → Option (List Char × Part)
  | ended, c => if c = ' ' || c = '\t' then some ([], ended) else none
  | escape w, c => (escapedChar? c).map fun c => ([c], around w)
  | strong, c => some (if c = '\'' then ([], plain) else ([c], strong))
  | name w read, c =>
    if isAlphanumeric c then some ([], name w (read ++ [c]))
    else if c = '\x7b' && read.isEmpty then some ([], bracedName w [])
    else
      let value := (valueOf (String.ofList read)).toList
      if c = '$' then some (value, name w []) else some (value ++ [c], around w)
  | bracedName w read, c =>
    if c = '\x7d' then some ((valueOf (String.ofList read)).toList, around w)
    else some ([], bracedName w (read ++ [c]))
  | weak, c =>
    if c = '$' then some ([], name true [])
    else if c = '"' then some ([], plain)
    else if c = '\\' then some ([], escape true)
    else some ([c], weak)
  | plain, c =>
    if c = '$' then some ([], name false [])
    else if c = '\'' then some ([], strong)
    else if c = '"' then some ([], weak)
    else if c = '\\' then some ([], escape false)
    else if c = ' ' || c = '\t' then some ([], ended)
    else some ([c], plain)

/-- What the end of a value adds to it; quotes and braces have to be closed by then. -/
def Part.finish (valueOf : String → String) : Part → Option (List Char)
  | plain => some []
  | ended => some []
  | escape w => if w then none else some []
  | name w read => if w then none else some (valueOf (String.ofList read)).toList
  | strong => none
  | weak => none
  | bracedName _ _ => none

/-- Reads a value. A comment may follow a blank after it. -/
def readValue (valueOf : String → String) (part : Part) : List Char → Option (List Char)
  | [] => part.finish valueOf
  | c :: cs =>
    if part = .ended && c = '#' then some []
    else do
      let (added, part) ← part.next valueOf c
      let rest ← readValue valueOf part cs
      return added ++ rest

/-! ## Assignments -/

def readName (cs : List Char) : Option (List Char × List Char) :=
  if cs.head?.any fun c => c.isAlpha || c = '_' then
    some (cs.span fun c => c.isAlphanum || c = '_' || c = '.')
  else none

def skipEquals? (cs : List Char) : Option (List Char) :=
  dropFront? ['='] (trimStart cs)

/-- Reads the name that a line assigns to; `export` may stand before it. -/
def readTarget (cs : List Char) : Option (String × List Char) := do
  let (name, rest) ← readName cs
  match skipEquals? rest with
  | some value => return (String.ofList name, value)
  | none =>
    if name ≠ "export".toList then none
    else
      let (name, rest) ← readName (trimStart rest)
      return (String.ofList name, ← skipEquals? rest)

/-- The value of a variable. Where a name has an equals sign in it, the variable is the part before the
first one, and its value has to go on with the rest and another such sign. -/
def lookup? (environment : Dict String) (name : String) : Option String :=
  if name = "" then none
  else
    environment.findSome? fun (set, value) =>
      (dropFront? (name.toList ++ ['=']) (set.toList ++ '=' :: value.toList)).map String.ofList

inductive Outcome where
  | assigned (environment : Dict String)
  | stopped (environment : Dict String)
  /-- No variable can have the value that the line gives one. -/
  | refused

def assignment? (environment : Dict String) (line : List Char) : Option (Option (String × List Char)) := do
  let line := trim line
  if line.isEmpty || line.head? = some '#' then return none
  let (name, value) ← readTarget line
  let value := trimStart value
  if value.isEmpty || value.head? = some '#' then return some (name, [])
  return some (name, ← readValue (fun v => (lookup? environment v).getD "") .plain value)

/-- Adds what a line assigns, if it is to a variable that is not set. A value has no NUL in it. -/
def assign (environment : Dict String) (line : List Char) : Outcome :=
  match assignment? environment line with
  | none => .stopped environment
  | some none => .assigned environment
  | some (some (name, value)) =>
    if (lookup? environment name).isSome then .assigned environment
    else if value.contains '\x00' then .refused
    else .assigned (environment ++ [(name, String.ofList value)])

/-- Adds the assignments of the lines, up to the first that is malformed; nothing if a value is
refused. -/
def assignAll (environment : Dict String) : List (Option (List Char)) → Option (Dict String)
  | [] => some environment
  | none :: _ => some environment
  | some line :: lines =>
    match assign environment line with
    | .assigned environment => assignAll environment lines
    | .stopped environment => some environment
    | .refused => none

def load (bytes : List UInt8) (environment : Dict String) : Option (Dict String) :=
  assignAll environment (lines bytes)

def words (bytes : List UInt8) : List String :=
  let pieces := (Utf8.decodeLossy bytes).splitBy fun a b => isAlphanumeric a == isAlphanumeric b
  (pieces.map String.ofList).eraseDups

end ApiManifest.EnvFile
