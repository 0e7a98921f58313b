import ApiManifest.FieldType
import ApiManifest.Yaml.Value

/-!
The places of a manifest: what may stand where a string, a flag, a list or a record is wanted. The
rules differ with the way in which the manifest comes.
-/

namespace ApiManifest

inductive DecodeError where
  | unknownField (name : String)
  | missingField (name : String)
  | duplicateField (name : String)
  | badTypeDefinition
  | typeAndResolver (field : String)
  | missingName
  | badKeyField
  | invalidType
  /-- No YAML, more than one document, nested or repeated beyond the limits, or with a key twice where
  anything may stand. -/
  | malformed
  deriving DecidableEq, Repr

namespace DecodeError

def ofAttributeError : AttributeError → DecodeError
  | .badTypeDefinition => .badTypeDefinition
  | .missingName => .missingName

def ofFault : Yaml.Fault → DecodeError
  | .wrongKind => .invalidType
  | .malformed => .malformed

end DecodeError

/-- The ways in which a part of a manifest comes: as YAML text, where any scalar is a string as it is
written; as a value, where only strings are strings; or inside an entry of `keyFields`, where records
may also be written as lists. -/
inductive Reading where
  | text
  | value
  | entry
  deriving DecidableEq, Repr

namespace Yaml.Node

def readString (r : Reading) : Node → Except DecodeError String
  | .scalar s => if r = .text || s.meaning = .string then .ok s.text else .error .invalidType
  | .unreadable => .error .malformed
  | _ => .error .invalidType

/-- May the text of the scalar be a flag? It has to be plain, or literal and tagged as a flag. -/
def isFlagText (s : Scalar) : Bool :=
  s.style = .plain || (s.style = .literal && s.tag = some (Tag.core "bool"))

def readBool (r : Reading) : Node → Except DecodeError Bool
  | .scalar s =>
    if r = .text then
      match if isFlagText s then boolOfText s.text else none with
      | some b => .ok b
      | none => .error .invalidType
    else
      match s.meaning with
      | .bool b => .ok b
      | _ => .error .invalidType
  | .unreadable => .error .malformed
  | _ => .error .invalidType

def isAbsent (r : Reading) : Node → Except DecodeError Bool
  | .scalar s =>
    if r ≠ .text then .ok (s.meaning = .null)
    else if s.style ≠ .plain then .ok false
    else
      match s.tag with
      | none => .ok (s.text = "" || isNullText s.text)
      | some tag =>
        if tag ≠ Tag.core "null" then .ok false
        else if isNullText s.text then .ok true
        else .error .invalidType
  | .unreadable => .error .malformed
  | _ => .ok false

def readOption (r : Reading) (read : Node → Except DecodeError α) (n : Node) : Except DecodeError (Option α) := do
  if ← n.isAbsent r then return none
  return some (← read n)

/-- Does the scalar stand for an empty list or record? In a text, if nothing is written; as a value, if
it is null. -/
def isVacant (r : Reading) (s : Scalar) : Bool :=
  match r with
  | .text => s.style = .plain && s.text = ""
  | .value => s.meaning = .null
  | .entry => false

def readItems (r : Reading) : Node → Except DecodeError (List Node)
  | .sequence _ items => .ok items
  | .scalar s => if isVacant r s then .ok [] else .error .invalidType
  | .mapping _ _ => .error .invalidType
  | .unreadable => .error .malformed

def readEntries (r : Reading) : Node → Except DecodeError (List (Node × Node))
  | .mapping _ entries => .ok entries
  | .scalar s => if isVacant r s then .ok [] else .error .invalidType
  | .sequence _ _ => .error .invalidType
  | .unreadable => .error .malformed

end Yaml.Node

/-- The type that a value gives: the default one for null, the shorthand, or a list of one element's
shorthand. -/
def FieldType.ofValue : Yaml.Value → Except AttributeError FieldType
  | .null => .ok default
  | .string s => FieldType.parse s
  | .sequence [.string s] => do
    let t ← FieldType.parse s
    if t.isList then .error .badTypeDefinition else .ok { t with isList := true }
  | _ => .error .badTypeDefinition

def Yaml.Node.readValue (n : Yaml.Node) : Except DecodeError Yaml.Value :=
  (Yaml.Value.ofNode n).mapError .ofFault

def FieldType.decode (n : Yaml.Node) : Except DecodeError FieldType := do
  (FieldType.ofValue (← n.readValue)).mapError .ofAttributeError

/-! ## Members of records -/

/-- The members of a kind of record, each with its name and then its other spellings. -/
class Members (μ : Type) where
  all : List μ
  spellings : μ → List String

namespace Members

variable {μ : Type} [Members μ]

def name (m : μ) : String :=
  (spellings m).headD ""

def ofName? (s : String) : Option μ :=
  all.find? fun (m : μ) => (spellings m).contains s

/-- The member that a key names. Inside an entry of `keyFields`, its number names it too, unless
written with a minus sign. -/
def ofKey (r : Reading) (key : Yaml.Node) : Except DecodeError μ :=
  let byNumber : Option μ := match r, key with
    | .entry, .scalar s =>
      match s.meaning with
      | .number (.whole (.ofNat n)) => if s.text.startsWith "-" then none else (all : List μ)[n]?
      | _ => none
    | _, _ => none
  match byNumber with
  | some m => .ok m
  | none => do
    let s ← key.readString r
    match ofName? s with
    | some m => .ok m
    | none => .error (.unknownField s)

def note [DecidableEq μ] (m : μ) (seen : List μ) : Except DecodeError (List μ) :=
  if seen.contains m then .error (.duplicateField (name m)) else .ok (m :: seen)

def require [DecidableEq μ] (m : μ) (seen : List μ) : Except DecodeError Unit :=
  if seen.contains m then .ok () else .error (.missingField (name m))

def read [DecidableEq μ] (r : Reading) (set : μ → Yaml.Node → σ → Except DecodeError σ) :
    List (Yaml.Node × Yaml.Node) → List μ → σ → Except DecodeError (List μ × σ)
  | [], seen, record => .ok (seen, record)
  | (key, value) :: entries, seen, record => do
    let m ← ofKey r key
    let seen ← note m seen
    read r set entries seen (← set m value record)

end Members

end ApiManifest
