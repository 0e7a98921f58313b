import ApiManifest.Json.Printer
import ApiManifest.Yaml.Number
import ApiManifest.Yaml.Scalar
import ApiManifest.Yaml.Tag

/-!
Documents as trees, and what their scalars mean where no type says it.
-/

namespace ApiManifest.Yaml

/-- A scalar as it is written: its text, after folding and unquoting, its style and its tag. -/
structure Scalar where
  text : String
  style : Style := .plain
  tag : Option Tag := none
  deriving DecidableEq, Repr

/-- A document, or a part of one. Mappings keep all their entries, in order. -/
inductive Node where
  | scalar (s : Scalar)
  | sequence (tag : Option Tag) (items : List Node)
  | mapping (tag : Option Tag) (entries : List (Node × Node))
  /-- Nothing can be read from here on: the text is no YAML any more, or it is nested too deeply or
  repeated too often. -/
  | unreadable
  deriving Inhabited

inductive Fault where
  | wrongKind
  /-- No YAML, nested or repeated beyond the limits, a key given twice, or a type of its own where none
  may stand. -/
  | malformed
  deriving DecidableEq, Repr

/-! ## The meaning of a scalar -/

inductive Meaning where
  | null
  | bool (b : Bool)
  | number (n : Number)
  | string
  /-- Not of the kind that its tag asks for, or a whole number of too many bits. -/
  | malformed
  deriving DecidableEq, Repr

def isNullText (s : String) : Bool :=
  s = "null" || s = "Null" || s = "NULL" || s = "~"

def boolOfText (s : String) : Option Bool :=
  if s = "true" || s = "True" || s = "TRUE" then some true
  else if s = "false" || s = "False" || s = "FALSE" then some false
  else none

namespace Meaning

def ofWhole (i : Int) : Meaning :=
  if Number.fits 64 i then .number (.whole i) else .malformed

/-- A number, or else a string. Whole numbers of more than 128 bits are read as fractions. -/
def ofNumberText (cs : List Char) : Meaning :=
  match (Number.whole? cs).filter (Number.fits 128) with
  | some i => ofWhole i
  | none =>
    match if Number.isPadded cs then none else Number.fraction? cs with
    | some n => .number n
    | none => .string

def ofPlain (text : String) : Meaning :=
  if text = "" || isNullText text then .null
  else
    match boolOfText text with
    | some b => .bool b
    | none => ofNumberText text.toList

def ofOption : Option Meaning → Meaning
  | some m => m
  | none => .malformed

end Meaning

namespace Scalar

def quoted (text : String) : Scalar :=
  { text, style := .quoted }

/-- The meaning without the tag: a scalar that is not plain is a string. -/
def untagged (s : Scalar) : Meaning :=
  if s.style = .plain then .ofPlain s.text else .string

def meaning (s : Scalar) : Meaning :=
  match s.tag with
  | none => s.untagged
  | some tag =>
    if tag.isLocal then s.untagged
    else if tag = .core "bool" then .ofOption ((boolOfText s.text).map .bool)
    else if tag = .core "int" then .ofOption ((Number.whole? s.text.toList).map .ofWhole)
    else if tag = .core "float" then .ofOption ((Number.fraction? s.text.toList).map .number)
    else if tag = .core "null" then if isNullText s.text then .null else .malformed
    else .string

def typeName? (s : Scalar) : Option String :=
  s.tag.bind Tag.typeName?

end Scalar

namespace Node

def empty : Node :=
  .scalar { text := "" }

def string (text : String) : Node :=
  .scalar (Scalar.quoted text)

mutual
/-- Checks in the order of the document that every scalar of the tree is of the kind that its tag asks
for, and that nothing is of a type of its own. -/
def checkTags : Node → Except Fault Unit
  | .scalar s =>
    if s.typeName?.isSome then .error .malformed
    else if s.meaning = .malformed then .error .wrongKind
    else .ok ()
  | .sequence tag items => if (tag.bind Tag.typeName?).isSome then .error .malformed else checkItemTags items
  | .mapping tag entries => if (tag.bind Tag.typeName?).isSome then .error .malformed else checkEntryTags entries
  | .unreadable => .error .malformed

def checkItemTags : List Node → Except Fault Unit
  | [] => .ok ()
  | n :: ns => do
    checkTags n
    checkItemTags ns

def checkEntryTags : List (Node × Node) → Except Fault Unit
  | [] => .ok ()
  | (k, v) :: es => do
    checkTags k
    checkTags v
    checkEntryTags es
end

mutual
def ofJson : Json → Node
  | .null => .scalar { text := "null" }
  | .bool true => .scalar { text := "true" }
  | .bool false => .scalar { text := "false" }
  | .number n => .scalar { text := String.ofList n.chars }
  | .string s => string s
  | .array items => .sequence none (ofItems items)
  | .object members => .mapping none (ofMembers members)

def ofItems : List Json → List Node
  | [] => []
  | item :: items => ofJson item :: ofItems items

def ofMembers : List (String × Json) → List (Node × Node)
  | [] => []
  | (key, value) :: members => (string key, ofJson value) :: ofMembers members
end

end Node

end ApiManifest.Yaml
