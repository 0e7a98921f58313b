import ApiManifest.Manifest.Load
import ApiManifest.Schema.Binding
import ApiManifest.Schema.Derive

/-!
From a manifest to its schema. What is wrong with single parts is noted, and the rest is kept.
-/

namespace ApiManifest

structure Request where
  action : Action
  base : String
  nested : Bool
  inMutation : Bool

namespace Schema

def ofManifest (m : Manifest) : Schema :=
  { apiName := m.apiNameSuffix
    enums := m.enums
    objects := m.objects.map fun (name, fields) => (name, { name, fields })
    queries := m.queries
    mutations := m.mutations
    sources := m.sources }

def requests (s : Schema) : List Request :=
  s.resolvers.filterMap fun (location, r) =>
    r.binding.map fun b =>
      let inMutation := match location with
        | .mutation _ => true
        | _ => false
      { action := b.action, base := b.returnType.name, nested := b.isNested, inMutation }

/-- The typed fields of an object that are neither scalars nor of a known type. -/
def misspelt (s : Schema) (o : ObjectType) : List SchemaError :=
  (o.unfilterable.filter fun f => !s.isKnownType f.typeName).map fun f =>
    .unknownFieldType o.name f.name f.typeName

/-- Adds the filter and, for a top-level list, the connection of a type. Misspelt types are reported
with the first filter only. -/
def requestFilter (base : String) (nested : Bool) (s : Schema) : Schema :=
  match s.object? base with
  | none => s.addError (.unknownType base .filter)
  | some o =>
    let errors := s.misspelt o
    let s := if nested then s else (s.addConnection base).2
    let (isNew, s) := s.addFilter o.filter
    if isNew then errors.foldl (fun s e => s.addError e) s else s

def requestInput (base : String) (action : Action) (s : Schema) : Schema :=
  match s.object? base with
  | none => s.addError (.unknownType base .input)
  | some o =>
    match o.input action with
    | .ok input => (s.addInput input).2
    | .error e => s.addError e

/-- Adds what one resolver calls for: a list a filter, an insertion or an update among the mutations
an input. -/
def meet (s : Schema) (r : Request) : Schema :=
  match r.action with
  | .list => s.requestFilter r.base r.nested
  | .insert | .update => if r.inMutation then s.requestInput r.base r.action else s
  | _ => s

def deriveTypes (s : Schema) : Schema :=
  s.requests.foldl meet s

end Schema

def Manifest.resolve (m : Manifest) : Schema :=
  (Schema.ofManifest m).bindResolvers.deriveTypes

end ApiManifest
