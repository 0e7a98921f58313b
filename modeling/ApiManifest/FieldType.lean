import ApiManifest.Text.Blank
import ApiManifest.Text.Identifier

/-!
Field types and their shorthand: a name, a `!` after it for a type that is never null, and
brackets around both for a list. Blanks may stand around each part.
-/

namespace ApiManifest

inductive AttributeError where
  | badTypeDefinition
  | missingName
  deriving DecidableEq, Repr

def AttributeError.message : AttributeError → String
  | .badTypeDefinition => "field has bad type definition, must be <type> or [<type>]"
  | .missingName => "fields must have a 'name' attribute"

/-- A named type or a list of it. Of a list, `nonNullable` speaks of the elements. -/
structure FieldType where
  name : String
  isList : Bool := false
  nonNullable : Bool := false
  deriving DecidableEq, Repr

namespace FieldType

open Text

def defaultName : String := "String"

instance : Inhabited FieldType := ⟨{ name := defaultName }⟩

def named (name : String) : FieldType :=
  { name }

def parseElement (isList : Bool) (cs : List Char) : Except AttributeError FieldType :=
  let (name, nonNullable) := match dropLast? '!' cs with
    | some rest => (trimEnd rest, true)
    | none => (cs, false)
  if isIdentifier name then .ok { name := String.ofList name, isList, nonNullable }
  else .error .badTypeDefinition

/-- Reads the shorthand. A `!` after the closing bracket is refused. -/
def parse (s : String) : Except AttributeError FieldType :=
  match trim s.toList with
  | '[' :: cs =>
    match dropLast? ']' cs with
    | some inner => parseElement true (trim inner)
    | none => .error .badTypeDefinition
  | cs => parseElement false cs

def shorthand (t : FieldType) : String :=
  let element := if t.nonNullable then t.name ++ "!" else t.name
  if t.isList then "[" ++ element ++ "]" else element

end FieldType

end ApiManifest
