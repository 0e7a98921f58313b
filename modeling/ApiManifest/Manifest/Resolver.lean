import ApiManifest.Attribute

/-!
Resolvers, the fields that they serve, and what binding a resolver gives it.
-/

namespace ApiManifest

inductive Action where
  | get
  | list
  | insert
  | update
  | delete
  | custom
  deriving DecidableEq, Repr

namespace Action

def name : Action → String
  | get => "get"
  | list => "list"
  | insert => "insert"
  | update => "update"
  | delete => "delete"
  | custom => "custom"

def all : List Action :=
  [get, list, insert, update, delete, custom]

def ofName? (s : String) : Option Action :=
  all.find? fun a => a.name == s

end Action

def queryType : String := "Query"
def mutationType : String := "Mutation"

/-- Where a resolver reads its keys: from the arguments of the call, or from the object around it. -/
inductive ArgsSource where
  | args
  | source
  deriving DecidableEq, Repr

namespace ArgsSource

def ofParent (parent : String) : ArgsSource :=
  if parent = queryType || parent = mutationType then args else source

def name : ArgsSource → String
  | args => "args"
  | source => "source"

end ArgsSource

inductive SourceKind where
  | dynamo
  | sql
  | lambda
  deriving DecidableEq, Repr

namespace SourceKind

def name : SourceKind → String
  | dynamo => "dynamo"
  | sql => "sql"
  | lambda => "lambda"

def ofName? (s : String) : Option SourceKind :=
  [dynamo, sql, lambda].find? fun k => k.name == s

end SourceKind

inductive Stage where
  | declared
  | bound
  | templateSelected
  | rendered
  | unbound
  | invalidAction
  | templateMissing
  deriving DecidableEq, Repr

def Stage.name : Stage → String
  | declared => "Declared"
  | bound => "Bound"
  | templateSelected => "TemplateSelected"
  | rendered => "Rendered"
  | unbound => "Unbound"
  | invalidAction => "InvalidAction"
  | templateMissing => "TemplateMissing"

structure Binding where
  parentType : String
  fieldName : String
  argsSource : ArgsSource
  action : Action
  template : String
  /-- The name of a declared data source; the default one, if the requested one is not declared. -/
  dataSource : String
  sourceKind : SourceKind
  returnType : FieldType
  deriving DecidableEq, Repr

def Binding.isNested (b : Binding) : Bool :=
  b.argsSource == .source

structure ResolverOf (φ : Type) where
  source : String := ""
  action : String
  keyFields : List φ := []
  template : Option String := none
  type : Option FieldType := none
  sortDescending : Bool := false
  binding : Option Binding := none
  stage : Stage := .declared

/-- A field of an object, or a key field of a resolver. A declared field has a type or a resolver. -/
structure Field where
  name : String
  type : Option FieldType := none
  resolver : Option (ResolverOf Field) := none
  /-- The type to take instead where the field goes into an input object. -/
  inputType : Option FieldType := none

abbrev Resolver := ResolverOf Field

namespace Field

def typed (name : String) (type : FieldType) : Field :=
  { name, type := some type }

/-- The name of the field's own type, else of its resolver's, else the default. -/
def typeName (f : Field) : String :=
  match f.type with
  | some t => t.name
  | none =>
    match f.resolver.bind (·.type) with
    | some t => t.name
    | none => FieldType.defaultName

end Field

end ApiManifest
