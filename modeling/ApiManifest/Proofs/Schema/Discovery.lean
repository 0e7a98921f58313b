import ApiManifest.Proofs.Dict
import ApiManifest.Proofs.Lists
import ApiManifest.Proofs.Schema.Binding
import ApiManifest.Schema.Resolve

/-!
# Declared resolvers and their binding

Every resolver of a schema is declared on a field, which gives it a parent, a name and a type to return.
Binding all resolvers binds each of them where it is declared; what fails is noted in their order. A
resolver that was fresh is bound afterwards or has left an error behind.
-/

namespace ApiManifest

structure Declaration where
  location : Location
  parent : String
  field : String
  returnType : FieldType
  resolver : Resolver

namespace Declaration

def bind (sources : Dict DataSource) (d : Declaration) : Resolver × Option SchemaError :=
  d.resolver.bind sources d.parent d.field d.returnType

def site (sources : Dict DataSource) (d : Declaration) : Site :=
  { sources, parent := d.parent, field := d.field, returnType := d.returnType }

theorem bind_eq (sources : Dict DataSource) (d : Declaration) : d.bind sources = (d.site sources).bind d.resolver :=
  rfl

end Declaration

def Location.parent : Location → String
  | .query _ => queryType
  | .mutation _ => mutationType
  | .field object _ => object

namespace Schema

/-! ## Declarations -/

def operationDeclarations (place : Nat → Location) (parent : String) :
    Nat → List Operation → List Declaration
  | _, [] => []
  | index, o :: os =>
    (o.resolver.map fun r => ⟨place index, parent, o.name, o.type, r⟩).toList ++
      operationDeclarations place parent (index + 1) os

def fieldDeclarations (object : String) : Nat → List Field → List Declaration
  | _, [] => []
  | index, f :: fs =>
    (f.resolver.map fun r => ⟨.field object index, object, f.name, r.type.getD default, r⟩).toList ++
      fieldDeclarations object (index + 1) fs

def declarations (s : Schema) : List Declaration :=
  operationDeclarations .query queryType 0 s.queries ++
    operationDeclarations .mutation mutationType 0 s.mutations ++
    s.objects.values.flatMap fun o => fieldDeclarations o.name 0 o.fields

theorem operationResolvers_eq (place : Nat → Location) (parent : String) (os : List Operation)
    (index : Nat) :
    operationResolvers place index os =
      (operationDeclarations place parent index os).map fun d => (d.location, d.resolver) := by
  induction os generalizing index with
  | nil => rfl
  | cons o os ih =>
      rw [operationResolvers, operationDeclarations, List.map_append, ← ih]
      cases o.resolver <;> rfl

theorem fieldResolvers_eq (object : String) (fs : List Field) (index : Nat) :
    fieldResolvers object index fs =
      (fieldDeclarations object index fs).map fun d => (d.location, d.resolver) := by
  induction fs generalizing index with
  | nil => rfl
  | cons f fs ih =>
      rw [fieldResolvers, fieldDeclarations, List.map_append, ← ih]
      cases f.resolver <;> rfl

theorem resolvers_eq (s : Schema) :
    s.resolvers = s.declarations.map fun d => (d.location, d.resolver) := by
  simp only [resolvers, declarations, List.map_append, List.map_flatMap,
    operationResolvers_eq .query queryType, operationResolvers_eq .mutation mutationType,
    fieldResolvers_eq]

theorem parent_of_mem_operationDeclarations {place : Nat → Location} {parent : String}
    (hp : ∀ i, (place i).parent = parent) {os : List Operation} {index : Nat} {d : Declaration}
    (h : d ∈ operationDeclarations place parent index os) : d.parent = d.location.parent := by
  induction os generalizing index with
  | nil => cases h
  | cons o os ih =>
      rw [operationDeclarations, List.mem_append, Option.mem_toList, Option.map_eq_some_iff] at h
      rcases h with ⟨r, _, rfl⟩ | h
      · exact (hp index).symm
      · exact ih h

theorem parent_of_mem_fieldDeclarations {object : String} {fs : List Field} {index : Nat} {d : Declaration}
    (h : d ∈ fieldDeclarations object index fs) : d.parent = d.location.parent := by
  induction fs generalizing index with
  | nil => cases h
  | cons f fs ih =>
      rw [fieldDeclarations, List.mem_append, Option.mem_toList, Option.map_eq_some_iff] at h
      rcases h with ⟨r, _, rfl⟩ | h
      · rfl
      · exact ih h

theorem parent_of_mem_declarations {s : Schema} {d : Declaration} (h : d ∈ s.declarations) :
    d.parent = d.location.parent := by
  simp only [declarations, List.mem_append, List.mem_flatMap] at h
  rcases h with (h | h) | ⟨o, _, h⟩
  · exact parent_of_mem_operationDeclarations (by intro; rfl) h
  · exact parent_of_mem_operationDeclarations (by intro; rfl) h
  · exact parent_of_mem_fieldDeclarations h

/-! ## Binding -/

variable (sources : Dict DataSource)

theorem operationResolvers_bind (place : Nat → Location) (parent : String) (os : List Operation)
    (index : Nat) :
    operationResolvers place index (os.map fun o => (o.bind sources parent).1) =
      (operationDeclarations place parent index os).map fun d => (d.location, (d.bind sources).1) := by
  induction os generalizing index with
  | nil => rfl
  | cons o os ih =>
      rw [List.map_cons, operationResolvers, operationDeclarations, List.map_append, ← ih]
      cases h : o.resolver <;> simp [Operation.bind, h, Declaration.bind]

theorem operationErrors_bind (place : Nat → Location) (parent : String) (os : List Operation)
    (index : Nat) :
    (os.flatMap fun o => (o.bind sources parent).2) =
      (operationDeclarations place parent index os).filterMap fun d => (d.bind sources).2 := by
  induction os generalizing index with
  | nil => rfl
  | cons o os ih =>
      rw [List.flatMap_cons, operationDeclarations, List.filterMap_append, ← ih]
      cases h : o.resolver with
      | none => simp [Operation.bind, h]
      | some r => cases he : (r.bind sources parent o.name o.type).2 <;>
          simp [Operation.bind, h, Declaration.bind, he]

theorem fieldResolvers_bind (object : String) (fs : List Field) (index : Nat) :
    fieldResolvers object index (fs.map fun f => (f.bind sources object).1) =
      (fieldDeclarations object index fs).map fun d => (d.location, (d.bind sources).1) := by
  induction fs generalizing index with
  | nil => rfl
  | cons f fs ih =>
      rw [List.map_cons, fieldResolvers, fieldDeclarations, List.map_append, ← ih]
      cases h : f.resolver <;> simp [Field.bind, h, Declaration.bind]

theorem fieldErrors_bind (object : String) (fs : List Field) (index : Nat) :
    (fs.flatMap fun f => (f.bind sources object).2) =
      (fieldDeclarations object index fs).filterMap fun d => (d.bind sources).2 := by
  induction fs generalizing index with
  | nil => rfl
  | cons f fs ih =>
      rw [List.flatMap_cons, fieldDeclarations, List.filterMap_append, ← ih]
      cases h : f.resolver with
      | none => simp [Field.bind, h]
      | some r => cases he : (r.bind sources object f.name (r.type.getD default)).2 <;>
          simp [Field.bind, h, Declaration.bind, he]

theorem bindResolvers_resolvers (s : Schema) :
    s.bindResolvers.resolvers = s.declarations.map fun d => (d.location, (d.bind s.sources).1) := by
  simp [resolvers, declarations, bindResolvers, Dict.values, ObjectType.bind, List.flatMap_map,
    List.map_flatMap, Function.comp_def, operationResolvers_bind s.sources _ queryType,
    operationResolvers_bind s.sources _ mutationType, fieldResolvers_bind]

theorem bindResolvers_errors (s : Schema) :
    s.bindResolvers.errors = s.errors ++ s.declarations.filterMap fun d => (d.bind s.sources).2 := by
  simp [declarations, bindResolvers, Dict.values, ObjectType.bind, List.flatMap_map,
    List.filterMap_flatMap, operationErrors_bind s.sources .query queryType _ 0,
    operationErrors_bind s.sources .mutation mutationType _ 0, fieldErrors_bind s.sources _ _ 0]

theorem bindResolvers_object? (s : Schema) (name : String) :
    s.bindResolvers.object? name = (s.object? name).map fun o => (o.bind s.sources).1 := by
  have h := Dict.value?_map (fun _ o => (ObjectType.bind s.sources o).1) s.objects name
  simpa [object?, bindResolvers, Function.comp_def] using h

end Schema

/-! ## Fresh resolvers -/

namespace Schema

def Fresh (s : Schema) : Prop :=
  ∀ d ∈ s.declarations, d.resolver.Fresh

theorem Fresh.binding_eq_none {s : Schema} (hs : s.Fresh) {d : Declaration} (hd : d ∈ s.declarations) :
    (d.bind s.sources).1.binding = none ↔ (d.bind s.sources).2 ≠ none :=
  (hs d hd).bind_eq_none (s := d.site s.sources)

/-- A schema of fresh resolvers is bound without errors just if all its resolvers are bound. -/
theorem Fresh.bindErrors_eq_nil {s : Schema} (hs : s.Fresh) :
    (s.declarations.filterMap fun d => (d.bind s.sources).2) = [] ↔
      ∀ x ∈ s.bindResolvers.resolvers, x.2.binding ≠ none := by
  rw [bindResolvers_resolvers, List.filterMap_eq_nil_iff, List.forall_mem_map]
  constructor
  · intro h d hd hn
    exact (hs.binding_eq_none hd).mp hn (h d hd)
  · intro h d hd
    exact Classical.byContradiction fun hn => h d hd ((hs.binding_eq_none hd).mpr hn)

end Schema

/-! ## Binding in place -/

theorem Operation.bind_fst (sources : Dict DataSource) (parent : String) (o : Operation) :
    (o.bind sources parent).1 =
      { o with resolver := o.resolver.map fun r => (r.bind sources parent o.name o.type).1 } := by
  obtain ⟨name, type, resolver⟩ := o
  cases resolver <;> rfl

theorem Field.bind_fst (sources : Dict DataSource) (parent : String) (f : Field) :
    (f.bind sources parent).1 =
      { f with resolver := f.resolver.map fun r => (r.bind sources parent f.name (r.type.getD (.named "String"))).1 } := by
  obtain ⟨name, type, resolver, inputType⟩ := f
  cases resolver <;> rfl

theorem ObjectType.bind_fst (sources : Dict DataSource) (o : ObjectType) :
    (o.bind sources).1 = { o with fields := o.fields.map fun f => (f.bind sources o.name).1 } := by
  simp [ObjectType.bind]

namespace Schema

structure BoundInPlace (s t : Schema) : Prop where
  queries : t.queries = s.queries.map fun o =>
    { o with resolver := o.resolver.map fun r => (r.bind s.sources queryType o.name o.type).1 }
  mutations : t.mutations = s.mutations.map fun o =>
    { o with resolver := o.resolver.map fun r => (r.bind s.sources mutationType o.name o.type).1 }
  objects : t.objects = s.objects.map fun (name, o) =>
    (name, { o with fields := o.fields.map fun f =>
      { f with resolver := f.resolver.map fun r => (r.bind s.sources o.name f.name (r.type.getD (.named "String"))).1 } })
  /-- Nothing but the template, the binding and the stage of a resolver is changed. -/
  resolvers : ∀ d ∈ s.declarations, ∃ template binding stage,
    (d.bind s.sources).1 = { d.resolver with template, binding, stage }
  order : s.resolvers = (s.declarations.map fun d => (d.location, d.resolver)) ∧
    t.resolvers = s.declarations.map fun d => (d.location, (d.bind s.sources).1)
  /-- Each resolver that is left unbound adds its error, in their order, and no other adds any. -/
  errors : ∃ es, t.errors = s.errors ++ es ∧
    List.Forall₂ (fun d e => (d.bind s.sources).2 = some e)
      (s.declarations.filter fun d => (d.bind s.sources).1.binding.isNone) es
  rest : t = { s with queries := t.queries, mutations := t.mutations, objects := t.objects, errors := t.errors }

/-- Binding the resolvers of a schema that holds fresh ones binds each in its place and does nothing else. -/
theorem Fresh.bindResolvers_inPlace {s : Schema} (hs : s.Fresh) : s.BoundInPlace s.bindResolvers where
  queries := by
    simp only [bindResolvers, List.map_map, Function.comp_def, Operation.bind_fst]
  mutations := by
    simp only [bindResolvers, List.map_map, Function.comp_def, Operation.bind_fst]
  objects := by
    simp only [bindResolvers, List.map_map, Function.comp_def, ObjectType.bind_fst, Field.bind_fst]
  resolvers := by
    intro d _
    rw [Declaration.bind_eq]
    rcases d.resolver.bind_cases (d.site s.sources) with ⟨b, h, _⟩ | ⟨e, h⟩
    · exact ⟨_, _, _, by rw [h]⟩
    · exact ⟨_, _, _, by rw [h]⟩
  order := ⟨s.resolvers_eq, s.bindResolvers_resolvers⟩
  errors := by
    refine ⟨_, s.bindResolvers_errors, forall₂_filterMap fun d hd => ?_⟩
    have h := hs.binding_eq_none hd
    cases hb : (d.bind s.sources).1.binding <;> cases he : (d.bind s.sources).2 <;> simp [hb, he] at h ⊢
  rest := rfl

def mixed : Schema where
  objects := [("Person", { name := "Person", fields := [{ name := "pet", resolver := some { action := "get" } }] })]
  queries := [{ name := "animal", resolver := some { action := "get" } }, { name := "version" }]
  mutations := [{ name := "add", resolver := some { action := "put" } }]
  sources := [("default", { lambda := some {} })]

theorem mixed_inPlace :
    mixed.Fresh ∧ mixed.BoundInPlace mixed.bindResolvers ∧
      mixed.bindResolvers.errors = [.invalidResolverAction "Mutation" "add" "put"] := by
  have hfresh : mixed.Fresh := by
    simp [Fresh, mixed, declarations, operationDeclarations, fieldDeclarations, Dict.values, ResolverOf.Fresh]
  exact ⟨hfresh, hfresh.bindResolvers_inPlace, by decide⟩

end Schema

end ApiManifest
