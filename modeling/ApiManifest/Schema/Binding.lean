import ApiManifest.Schema.Basic
import ApiManifest.Text.Blank

/-!
Binding resolvers: finding the data source of each, and checking its action, its template and the
type that it returns.
-/

namespace ApiManifest

def defaultSource : String := "default"

def checkCardinality (action : Action) (parent field : String) (returnType : FieldType) :
    Except SchemaError Unit :=
  if action = .list && !returnType.isList then
    .error (.mismatchedCardinality parent field returnType.shorthand)
  else .ok ()

namespace ResolverOf

def customTemplate? (r : Resolver) : Option String :=
  match r.template with
  | none => none
  | some t => if (Text.trim t.toList).isEmpty then none else some (Text.trimmed t)

/-- The declared source that the resolver uses, and its technology. A declared source that is unsound
is not replaced by the default one. -/
def chosenSource? (r : Resolver) (sources : Dict DataSource) : Option (String × SourceKind) :=
  let used :=
    match sources.value? r.source with
    | some s => some (r.source, s)
    | none => (sources.value? defaultSource).map fun s => (defaultSource, s)
  used.bind fun (name, s) => s.kind?.map fun kind => (name, kind)

def checkAction (r : Resolver) (parent field : String) (returnType : FieldType) :
    Except SchemaError (Action × String) := do
  match Action.ofName? r.action with
  | none => throw (.invalidResolverAction parent field r.action)
  | some action =>
    let template ← match action, r.customTemplate? with
      | .custom, some t => pure t
      | .custom, none => throw (.templateTypeConflict parent field .customWithout)
      | _, some _ => throw (.templateTypeConflict parent field .standardWith)
      | action, none => pure action.name
    checkCardinality action parent field returnType
    return (action, template)

/-- Binds a resolver to a field. On failure only its stage changes. -/
def bind (sources : Dict DataSource) (parent field : String) (returnType : FieldType) (r : Resolver) :
    Resolver × Option SchemaError :=
  match r.chosenSource? sources with
  | none => ({ r with stage := .unbound }, some (.unknownDataSource parent field r.source))
  | some (dataSource, sourceKind) =>
    match r.checkAction parent field returnType with
    | .error e => ({ r with stage := .invalidAction }, some e)
    | .ok (action, template) =>
      let binding : Binding :=
        { parentType := parent, fieldName := field, argsSource := .ofParent parent, action, template,
          dataSource, sourceKind, returnType }
      ({ r with template := some template, binding := some binding, stage := .bound }, none)

end ResolverOf

/-! ## All resolvers of a schema -/

def Operation.bind (sources : Dict DataSource) (parent : String) (o : Operation) :
    Operation × List SchemaError :=
  match o.resolver with
  | none => (o, [])
  | some r =>
    let (r, e) := r.bind sources parent o.name o.type
    ({ o with resolver := some r }, e.toList)

def Field.bind (sources : Dict DataSource) (parent : String) (f : Field) : Field × List SchemaError :=
  match f.resolver with
  | none => (f, [])
  | some r =>
    let (r, e) := r.bind sources parent f.name (r.type.getD default)
    ({ f with resolver := some r }, e.toList)

def ObjectType.bind (sources : Dict DataSource) (o : ObjectType) : ObjectType × List SchemaError :=
  let bound := o.fields.map (Field.bind sources o.name)
  ({ o with fields := bound.map (·.1) }, bound.flatMap (·.2))

/-- Binds all resolvers, each on its own; what fails is noted in order. -/
def Schema.bindResolvers (s : Schema) : Schema :=
  let queries := s.queries.map (Operation.bind s.sources queryType)
  let mutations := s.mutations.map (Operation.bind s.sources mutationType)
  let objects := s.objects.map fun (name, o) => (name, o.bind s.sources)
  { s with
    queries := queries.map (·.1)
    mutations := mutations.map (·.1)
    objects := objects.map fun (name, o, _) => (name, o)
    errors := s.errors ++ queries.flatMap (·.2) ++ mutations.flatMap (·.2) ++ objects.flatMap fun (_, _, e) => e }

end ApiManifest
