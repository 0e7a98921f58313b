import ApiManifest.Schema.Basic

/-!
Objects derived from declared ones: filters for lists, and inputs for insertions and updates.
-/

namespace ApiManifest

inductive ScalarClass where
  | aws
  | core
  | other
  deriving DecidableEq, Repr

/-- The extended scalars, which are filtered as strings. -/
def awsScalars : List String :=
  ["AWSDate", "AWSDateTime", "AWSTime", "AWSTimestamp", "AWSEmail", "AWSURL", "AWSPhone", "AWSIPAddress",
    "AWSJSON"]

def coreScalars : List String :=
  ["ID", "String", "Int", "Float", "Boolean"]

def ScalarClass.ofType (name : String) : ScalarClass :=
  if awsScalars.contains name then aws else if coreScalars.contains name then core else other

def ScalarClass.name : ScalarClass → String
  | aws => "Aws"
  | core => "Core"
  | other => "Other"

def filterName (object : String) : String :=
  object ++ "Filter"

def scalarFilterName (scalar : String) : String :=
  "Table" ++ scalar ++ "FilterInput"

def FieldType.filterType? (t : FieldType) : Option FieldType :=
  match ScalarClass.ofType t.name with
  | .aws => some (.named (scalarFilterName "String"))
  | .core => some (.named (scalarFilterName t.name))
  | .other => none

def ObjectType.filter (o : ObjectType) : ObjectType :=
  { name := filterName o.name
    fields := o.fields.filterMap fun f => (f.type.bind (·.filterType?)).map fun t => Field.typed f.name t }

def ObjectType.unfilterable (o : ObjectType) : List Field :=
  o.fields.filter fun f => f.type.any fun t => ScalarClass.ofType t.name = .other

def isGeneratedId (name : String) (t : FieldType) : Bool :=
  name = "id" && t.name = "ID" && t.nonNullable && !t.isList

def inputName? (object : String) : Action → Option String
  | .insert => some ("Create" ++ object ++ "Input")
  | .update => some ("Update" ++ object ++ "Input")
  | _ => none

def Field.inputField? (action : Action) (f : Field) : Option Field :=
  match f.type with
  | none => none
  | some t =>
    if action = .insert && isGeneratedId f.name t then none
    else some (Field.typed f.name { f.inputType.getD t with nonNullable := false })

/-- The input object of an action: all typed fields, nullable, an insertion without the identifier that
is made up. -/
def ObjectType.input (o : ObjectType) (action : Action) : Except SchemaError ObjectType :=
  match inputName? o.name action with
  | none => .error (.invalidInputAction o.name action)
  | some name => .ok { name, fields := o.fields.filterMap (Field.inputField? action) }

end ApiManifest
