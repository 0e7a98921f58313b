import ApiManifest.Manifest.Signature

/-!
Schemas: a manifest with its resolvers bound and the types added that these call for.
-/

namespace ApiManifest

inductive Purpose where
  | filter
  | input
  deriving DecidableEq, Repr

def Purpose.name : Purpose → String
  | .filter => "filter"
  | .input => "input"

inductive TemplateConflict where
  | customWithout
  | standardWith
  deriving DecidableEq, Repr

def TemplateConflict.reason : TemplateConflict → String
  | .customWithout => "must specify custom template when resolver action is 'custom'"
  | .standardWith => "must not specify a custom template when resolver action is not 'custom'"

inductive SchemaError where
  | unknownDataSource (parent field requested : String)
  | invalidResolverAction (parent field action : String)
  | templateTypeConflict (parent field : String) (conflict : TemplateConflict)
  | mismatchedCardinality (parent field returnType : String)
  | unknownType (name : String) (purpose : Purpose)
  | invalidInputAction (object : String) (action : Action)
  | unknownFieldType (object field typeName : String)
  deriving DecidableEq, Repr

def SchemaError.kind : SchemaError → String
  | .unknownDataSource .. => "UnknownDataSource"
  | .invalidResolverAction .. => "InvalidResolverAction"
  | .templateTypeConflict .. => "TemplateTypeConflict"
  | .mismatchedCardinality .. => "MismatchedResolverCardinality"
  | .unknownType .. => "UnknownType"
  | .invalidInputAction .. => "InvalidInputAction"
  | .unknownFieldType .. => "UnknownFieldType"

def SchemaError.message : SchemaError → String
  | .unknownDataSource parent field requested =>
    "resolver '" ++ parent ++ "_" ++ field ++ "' has unknown data source '" ++ requested ++ "'"
  | .invalidResolverAction parent field action =>
    "resolver '" ++ parent ++ "_" ++ field ++ "' specifies invalid action '" ++ action ++ "'"
  | .templateTypeConflict parent field conflict =>
    "resolver '" ++ parent ++ "_" ++ field ++ "': " ++ conflict.reason
  | .mismatchedCardinality parent field returnType =>
    "resolver '" ++ parent ++ "_" ++ field ++ "' has action 'list' but returns non-list type '" ++ returnType ++ "'"
  | .unknownType name purpose =>
    "unknown type '" ++ name ++ "' when attempting to create " ++ purpose.name ++ " object"
  | .invalidInputAction object action =>
    "invalid action type for input object '" ++ object ++ "': " ++ action.name
  | .unknownFieldType object field typeName =>
    "field '" ++ object ++ "." ++ field ++ "' has unrecognised type '" ++ typeName ++ "'"

structure ObjectType where
  name : String
  fields : List Field

inductive Location where
  | query (index : Nat)
  | mutation (index : Nat)
  | field (object : String) (index : Nat)
  deriving DecidableEq, Repr

structure Schema where
  apiName : String := ""
  enums : Dict (List String) := []
  objects : Dict ObjectType := []
  queries : List Operation := []
  mutations : List Operation := []
  sources : Dict DataSource := []
  filters : Dict ObjectType := []
  inputs : Dict ObjectType := []
  /-- The names of the types that have a connection. -/
  connections : List String := []
  errors : List SchemaError := []

namespace Schema

def object? (s : Schema) (name : String) : Option ObjectType :=
  s.objects.value? name

def isKnownType (s : Schema) (name : String) : Bool :=
  s.objects.has name || s.enums.has name

def operationResolvers (place : Nat → Location) : Nat → List Operation → List (Location × Resolver)
  | _, [] => []
  | index, o :: os =>
    match o.resolver with
    | some r => (place index, r) :: operationResolvers place (index + 1) os
    | none => operationResolvers place (index + 1) os

def fieldResolvers (object : String) : Nat → List Field → List (Location × Resolver)
  | _, [] => []
  | index, f :: fs =>
    match f.resolver with
    | some r => (.field object index, r) :: fieldResolvers object (index + 1) fs
    | none => fieldResolvers object (index + 1) fs

/-- All declared resolvers with their places: those of queries, of mutations, of object fields. -/
def resolvers (s : Schema) : List (Location × Resolver) :=
  operationResolvers .query 0 s.queries ++ operationResolvers .mutation 0 s.mutations ++
    s.objects.values.flatMap fun o => fieldResolvers o.name 0 o.fields

def boundResolvers (s : Schema) : List Resolver :=
  (s.resolvers.map (·.2)).filter fun r => r.binding.isSome

def resolverAt? (s : Schema) : Location → Option Resolver
  | .query i => s.queries[i]?.bind (·.resolver)
  | .mutation i => s.mutations[i]?.bind (·.resolver)
  | .field object i => (s.objects.value? object).bind fun o => o.fields[i]?.bind (·.resolver)

/-! Additions leave what is there: each tells whether the name is new. -/

def addFilter (filter : ObjectType) (s : Schema) : Bool × Schema :=
  if s.filters.has filter.name then (false, s)
  else (true, { s with filters := Dict.set filter.name filter s.filters })

def addInput (input : ObjectType) (s : Schema) : Bool × Schema :=
  if s.inputs.has input.name then (false, s)
  else (true, { s with inputs := Dict.set input.name input s.inputs })

def addConnection (base : String) (s : Schema) : Bool × Schema :=
  if s.connections.contains base then (false, s)
  else (true, { s with connections := s.connections ++ [base] })

def addError (e : SchemaError) (s : Schema) : Schema :=
  { s with errors := s.errors ++ [e] }

/-! Declarations take the place of earlier ones of their name, or come last. -/

def setObject (o : ObjectType) (s : Schema) : Schema :=
  { s with objects := Dict.set o.name o s.objects }

def setEnum (name : String) (values : List String) (s : Schema) : Schema :=
  { s with enums := Dict.set name values s.enums }

def setSource (name : String) (source : DataSource) (s : Schema) : Schema :=
  { s with sources := Dict.set name source s.sources }

def removeSource (name : String) (s : Schema) : Bool × Schema :=
  (s.sources.has name, { s with sources := s.sources.remove name })

def addQuery (o : Operation) (s : Schema) : Schema :=
  { s with queries := s.queries ++ [o] }

def addMutation (o : Operation) (s : Schema) : Schema :=
  { s with mutations := s.mutations ++ [o] }

end Schema

end ApiManifest
