import ApiManifest.FieldType

/-!
Attributes, written `name` or `name:type`: read as a whole, or one part at a time.
-/

namespace ApiManifest

open Text

structure Attribute where
  name : String
  type : FieldType
  deriving DecidableEq, Repr

namespace Attribute

/-- Reads an attribute. A fault in the type is reported before a missing name. -/
def parse (s : String) : Except AttributeError Attribute := do
  let (name, type) ← match splitOnce ':' s.toList with
    | some (name, type) => do pure (name, ← FieldType.parse (String.ofList type))
    | none => pure (s.toList, default)
  if (trim name).isEmpty then throw .missingName
  return { name := String.ofList (trim name), type }

def namePart (s : String) : String :=
  match splitOnce ':' s.toList with
  | some (name, _) => String.ofList (trim name)
  | none => String.ofList (trim s.toList)

/-- The part after the first colon, or `otherwise` if there is none or it is blank. -/
def typePart (s otherwise : String) : String :=
  match splitOnce ':' s.toList with
  | some (_, type) => if (trim type).isEmpty then otherwise else String.ofList (trim type)
  | none => otherwise

end Attribute

structure KeyAttribute where
  name : String
  type : String
  deriving DecidableEq, Repr

def KeyAttribute.defaultType : String := "S"

def KeyAttribute.parse? (s : String) : Option KeyAttribute :=
  let name := Attribute.namePart s
  if name = "" then none else some { name, type := Attribute.typePart s defaultType }

end ApiManifest
