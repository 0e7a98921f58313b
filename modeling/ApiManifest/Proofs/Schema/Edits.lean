import ApiManifest.Proofs.Schema.Discovery
import ApiManifest.Proofs.Schema.Locations
import Mathlib.Data.List.Nodup

/-!
# Schemas under edits

A schema is edited by additions, declarations and binding; resolving a manifest comes to such edits too. Whatever the
edits, each object stands under its own name, so that the list of the resolvers and the look-up by location agree; what
has been added keeps its place, and errors are only added at the end.
-/

namespace ApiManifest

/-! ## Objects under their own names -/

/-- Each object stands under its own name, and no two have the same. -/
def Dict.OwnNames (d : Dict ObjectType) : Prop :=
  d.names.Nodup ∧ ∀ e ∈ d, e.2.name = e.1

namespace Dict.OwnNames

variable {d : Dict ObjectType}

theorem nil : OwnNames [] :=
  ⟨List.nodup_nil, fun _ he => nomatch he⟩

theorem set (h : OwnNames d) (o : ObjectType) : OwnNames (Dict.set o.name o d) := by
  refine ⟨nodup_names_set h.1, fun e he => ?_⟩
  rcases mem_of_mem_set he with rfl | he
  · rfl
  · exact h.2 e he

theorem snoc (h : OwnNames d) {o : ObjectType} (ho : o.name ∉ d.names) : OwnNames (d ++ [(o.name, o)]) := by
  have hset := h.set o
  rwa [set_of_not_has (by simpa [← has_iff] using ho)] at hset

theorem map (h : OwnNames d) {f : ObjectType → ObjectType} (hf : ∀ o, (f o).name = o.name) :
    OwnNames (d.map fun e => (e.1, f e.2)) := by
  constructor
  · simpa [names, Function.comp_def] using h.1
  · intro e he
    obtain ⟨e', he', rfl⟩ := List.mem_map.mp he
    exact (hf e'.2).trans (h.2 e' he')

theorem nodup_values (h : OwnNames d) : (d.values.map (·.name)).Nodup := by
  have hnames : d.values.map (·.name) = d.names := by
    rw [values, names, List.map_map]
    exact List.map_congr_left h.2
  rw [hnames]
  exact h.1

end Dict.OwnNames

namespace Schema

structure Keyed (s : Schema) : Prop where
  objects : s.objects.OwnNames
  filters : s.filters.OwnNames
  inputs : s.inputs.OwnNames

/-! ## Locations -/

/-- The resolvers and their locations determine each other: no location is listed twice, and the look-up finds what is
listed. -/
structure Indexed (s : Schema) : Prop where
  distinct : (s.resolvers.map (·.1)).Nodup
  found : ∀ l r, s.resolverAt? l = some r ↔ (l, r) ∈ s.resolvers

def located {β : Type} (resolver : β → Option Resolver) (place : Nat → Location) (bs : List β) : List Location :=
  (bs.zipIdx.filterMap fun e => (resolver e.1).map fun r => (place e.2, r)).map (·.1)

section

variable {β : Type} {resolver : β → Option Resolver} {place : Nat → Location} {bs : List β}

theorem exists_of_mem_located {l : Location} (h : l ∈ located resolver place bs) : ∃ i, l = place i := by
  obtain ⟨x, hx, rfl⟩ := List.mem_map.mp h
  obtain ⟨i, _, _, _, hl⟩ := mem_zipIdx_resolvers.mp hx
  exact ⟨i, hl⟩

theorem nodup_located (hp : ∀ i j, place i = place j → i = j) : (located resolver place bs).Nodup := by
  have hindex : bs.zipIdx.Pairwise fun e e' => e.2 ≠ e'.2 := by
    rw [← List.pairwise_map (f := Prod.snd) (R := (· ≠ ·)), List.zipIdx_map_snd]
    exact List.nodup_range'
  rw [located, List.Nodup, List.pairwise_map, List.pairwise_filterMap]
  refine hindex.imp fun hne x hx y hy he => hne ?_
  obtain ⟨r, _, rfl⟩ := Option.map_eq_some_iff.mp hx
  obtain ⟨r', _, rfl⟩ := Option.map_eq_some_iff.mp hy
  exact hp _ _ he

end

theorem locations_eq (s : Schema) :
    s.resolvers.map (·.1) = located (·.resolver) .query s.queries ++ located (·.resolver) .mutation s.mutations ++
      s.objects.values.flatMap fun o => located (·.resolver) (.field o.name) o.fields := by
  simp only [resolvers, operationResolvers_eq_zipIdx, fieldResolvers_eq_zipIdx, List.map_append, List.map_flatMap,
    located]

theorem nodup_fieldLocations {os : List ObjectType} (h : (os.map (·.name)).Nodup) :
    (os.flatMap fun o => located (·.resolver) (.field o.name) o.fields).Nodup := by
  rw [List.nodup_flatMap]
  refine ⟨fun o _ => nodup_located fun i j he => (Location.field.inj he).2, ?_⟩
  refine (List.pairwise_map.mp h).imp fun hne l hl hl' => hne ?_
  obtain ⟨i, rfl⟩ := exists_of_mem_located hl
  obtain ⟨j, he⟩ := exists_of_mem_located hl'
  exact (Location.field.inj he).1

theorem Keyed.indexed {s : Schema} (h : s.Keyed) : s.Indexed where
  distinct := by
    rw [locations_eq, List.nodup_append, List.nodup_append]
    refine ⟨⟨nodup_located (by simp), nodup_located (by simp), ?_⟩, nodup_fieldLocations h.objects.nodup_values, ?_⟩
    · intro l hl l' hl'
      obtain ⟨i, rfl⟩ := exists_of_mem_located hl
      obtain ⟨j, rfl⟩ := exists_of_mem_located hl'
      simp
    · intro l hl l' hl'
      obtain ⟨o, _, hl'⟩ := List.mem_flatMap.mp hl'
      obtain ⟨j, rfl⟩ := exists_of_mem_located hl'
      rcases List.mem_append.mp hl with hl | hl
      · obtain ⟨i, rfl⟩ := exists_of_mem_located hl
        simp
      · obtain ⟨i, rfl⟩ := exists_of_mem_located hl
        simp
  found := fun _ _ => resolverAt?_eq_some h.objects.1 h.objects.2

end Schema

/-! ## Edits -/

inductive Edit where
  | addFilter (filter : ObjectType)
  | addInput (input : ObjectType)
  | addConnection (base : String)
  | addError (e : SchemaError)
  | bindResolvers
  | setObject (o : ObjectType)
  | setEnum (name : String) (values : List String)
  | setSource (name : String) (source : DataSource)
  | removeSource (name : String)
  | addQuery (o : Operation)
  | addMutation (o : Operation)

namespace Schema

def edit (s : Schema) : Edit → Schema
  | .addFilter filter => (s.addFilter filter).2
  | .addInput input => (s.addInput input).2
  | .addConnection base => (s.addConnection base).2
  | .addError e => s.addError e
  | .bindResolvers => s.bindResolvers
  | .setObject o => s.setObject o
  | .setEnum name values => s.setEnum name values
  | .setSource name source => s.setSource name source
  | .removeSource name => (s.removeSource name).2
  | .addQuery o => s.addQuery o
  | .addMutation o => s.addMutation o

def after (s : Schema) (edits : List Edit) : Schema :=
  edits.foldl edit s

variable {s t u : Schema}

theorem after_append (s : Schema) (earlier later : List Edit) :
    s.after (earlier ++ later) = (s.after earlier).after later :=
  List.foldl_append

/-! ## Additions -/

theorem addFilter_new {filter : ObjectType} (h : filter.name ∉ s.filters.names) :
    s.addFilter filter = (true, { s with filters := s.filters ++ [(filter.name, filter)] }) := by
  have hhas : s.filters.has filter.name = false := by simpa [← Dict.has_iff] using h
  simp [addFilter, hhas, Dict.set_of_not_has hhas]

theorem addFilter_old {filter : ObjectType} (h : filter.name ∈ s.filters.names) : s.addFilter filter = (false, s) := by
  simp [addFilter, Dict.has_iff.mpr h]

theorem addInput_new {input : ObjectType} (h : input.name ∉ s.inputs.names) :
    s.addInput input = (true, { s with inputs := s.inputs ++ [(input.name, input)] }) := by
  have hhas : s.inputs.has input.name = false := by simpa [← Dict.has_iff] using h
  simp [addInput, hhas, Dict.set_of_not_has hhas]

theorem addInput_old {input : ObjectType} (h : input.name ∈ s.inputs.names) : s.addInput input = (false, s) := by
  simp [addInput, Dict.has_iff.mpr h]

theorem addConnection_new {base : String} (h : base ∉ s.connections) :
    s.addConnection base = (true, { s with connections := s.connections ++ [base] }) := by
  simp [addConnection, h]

theorem addConnection_old {base : String} (h : base ∈ s.connections) : s.addConnection base = (false, s) := by
  simp [addConnection, h]

/-- An addition tells whether the name is new. What is new comes last, and what is not changes nothing. -/
structure Additive (s : Schema) : Prop where
  newFilter : ∀ f, f.name ∉ s.filters.names →
    s.addFilter f = (true, { s with filters := s.filters ++ [(f.name, f)] })
  oldFilter : ∀ f, f.name ∈ s.filters.names → s.addFilter f = (false, s)
  newInput : ∀ i, i.name ∉ s.inputs.names → s.addInput i = (true, { s with inputs := s.inputs ++ [(i.name, i)] })
  oldInput : ∀ i, i.name ∈ s.inputs.names → s.addInput i = (false, s)
  newConnection : ∀ base, base ∉ s.connections →
    s.addConnection base = (true, { s with connections := s.connections ++ [base] })
  oldConnection : ∀ base, base ∈ s.connections → s.addConnection base = (false, s)

theorem additive (s : Schema) : s.Additive :=
  ⟨fun _ => addFilter_new, fun _ => addFilter_old, fun _ => addInput_new, fun _ => addInput_old,
    fun _ => addConnection_new, fun _ => addConnection_old⟩

/-! ## What edits keep -/

theorem Keyed.edit (h : s.Keyed) (e : Edit) : (s.edit e).Keyed := by
  cases e with
  | addFilter filter =>
      by_cases hname : filter.name ∈ s.filters.names
      · rwa [Schema.edit, addFilter_old hname]
      · rw [Schema.edit, addFilter_new hname]
        exact ⟨h.objects, h.filters.snoc hname, h.inputs⟩
  | addInput input =>
      by_cases hname : input.name ∈ s.inputs.names
      · rwa [Schema.edit, addInput_old hname]
      · rw [Schema.edit, addInput_new hname]
        exact ⟨h.objects, h.filters, h.inputs.snoc hname⟩
  | addConnection base =>
      by_cases hbase : base ∈ s.connections
      · rwa [Schema.edit, addConnection_old hbase]
      · rw [Schema.edit, addConnection_new hbase]
        exact ⟨h.objects, h.filters, h.inputs⟩
  | bindResolvers =>
      refine ⟨?_, h.filters, h.inputs⟩
      have hbound := h.objects.map (f := fun o => (o.bind s.sources).1) fun o => rfl
      simpa [Schema.edit, Schema.bindResolvers, Function.comp_def] using hbound
  | setObject o => exact ⟨h.objects.set o, h.filters, h.inputs⟩
  | addError | setEnum | setSource | removeSource | addQuery | addMutation => exact ⟨h.objects, h.filters, h.inputs⟩

theorem Keyed.after (h : s.Keyed) (edits : List Edit) : (s.after edits).Keyed := by
  induction edits generalizing s with
  | nil => exact h
  | cons e edits ih => exact ih (h.edit e)

structure Grown (s t : Schema) : Prop where
  filters : s.filters <+: t.filters
  inputs : s.inputs <+: t.inputs
  connections : s.connections <+: t.connections
  errors : s.errors <+: t.errors

theorem Grown.refl (s : Schema) : s.Grown s :=
  ⟨List.prefix_rfl, List.prefix_rfl, List.prefix_rfl, List.prefix_rfl⟩

theorem Grown.trans (h : s.Grown t) (h' : t.Grown u) : s.Grown u :=
  ⟨h.filters.trans h'.filters, h.inputs.trans h'.inputs, h.connections.trans h'.connections, h.errors.trans h'.errors⟩

theorem grown_edit (s : Schema) (e : Edit) : s.Grown (s.edit e) := by
  cases e with
  | addFilter filter =>
      by_cases hname : filter.name ∈ s.filters.names
      · rw [edit, addFilter_old hname]
        exact .refl s
      · rw [edit, addFilter_new hname]
        exact { Grown.refl s with filters := List.prefix_append _ _ }
  | addInput input =>
      by_cases hname : input.name ∈ s.inputs.names
      · rw [edit, addInput_old hname]
        exact .refl s
      · rw [edit, addInput_new hname]
        exact { Grown.refl s with inputs := List.prefix_append _ _ }
  | addConnection base =>
      by_cases hbase : base ∈ s.connections
      · rw [edit, addConnection_old hbase]
        exact .refl s
      · rw [edit, addConnection_new hbase]
        exact { Grown.refl s with connections := List.prefix_append _ _ }
  | addError e => exact { Grown.refl s with errors := List.prefix_append _ _ }
  | bindResolvers =>
      have herrors : s.errors <+: s.bindResolvers.errors := by
        rw [bindResolvers_errors]
        exact List.prefix_append _ _
      exact { Grown.refl s with errors := herrors }
  | setObject | setEnum | setSource | removeSource | addQuery | addMutation => exact { Grown.refl s with }

theorem grown_after (s : Schema) (edits : List Edit) : s.Grown (s.after edits) := by
  induction edits generalizing s with
  | nil => exact .refl s
  | cons e edits ih => exact (s.grown_edit e).trans (ih (s.edit e))

/-! ## Resolving by edits -/

theorem foldl_addError_eq_after (es : List SchemaError) (s : Schema) :
    es.foldl (fun s e => s.addError e) s = s.after (es.map .addError) := by
  rw [after, List.foldl_map]
  rfl

theorem exists_edits_requestFilter (s : Schema) (base : String) (nested : Bool) :
    ∃ edits, s.requestFilter base nested = s.after edits := by
  unfold requestFilter
  cases s.object? base with
  | none => exact ⟨[.addError _], rfl⟩
  | some o =>
      obtain ⟨before, hbefore⟩ : ∃ edits, (if nested then s else (s.addConnection base).2) = s.after edits := by
        cases nested with
        | true => exact ⟨[], rfl⟩
        | false => exact ⟨[.addConnection base], rfl⟩
      dsimp only
      rw [hbefore]
      split
      · exact ⟨before ++ .addFilter o.filter :: (s.misspelt o).map .addError, by
          rw [foldl_addError_eq_after, after_append]
          rfl⟩
      · exact ⟨before ++ [.addFilter o.filter], by
          rw [after_append]
          rfl⟩

theorem exists_edits_requestInput (s : Schema) (base : String) (action : Action) :
    ∃ edits, s.requestInput base action = s.after edits := by
  unfold requestInput
  cases s.object? base with
  | none => exact ⟨[.addError _], rfl⟩
  | some o =>
      dsimp only
      split
      · exact ⟨[.addInput _], rfl⟩
      · exact ⟨[.addError _], rfl⟩

theorem exists_edits_meet (s : Schema) (r : Request) : ∃ edits, s.meet r = s.after edits := by
  have hinput : ∃ edits, (if r.inMutation then s.requestInput r.base r.action else s) = s.after edits := by
    split
    · exact s.exists_edits_requestInput r.base r.action
    · exact ⟨[], rfl⟩
  unfold meet
  split
  · exact s.exists_edits_requestFilter r.base r.nested
  · exact hinput
  · exact hinput
  · exact ⟨[], rfl⟩

theorem exists_edits_foldl_meet (requests : List Request) (s : Schema) :
    ∃ edits, requests.foldl meet s = s.after edits := by
  induction requests generalizing s with
  | nil => exact ⟨[], rfl⟩
  | cons r requests ih =>
      obtain ⟨first, hfirst⟩ := s.exists_edits_meet r
      obtain ⟨rest, hrest⟩ := ih (s.meet r)
      exact ⟨first ++ rest, by rw [List.foldl_cons, hrest, hfirst, after_append]⟩

end Schema

/-- What resolving makes of a manifest, edits make of its declarations. -/
theorem Manifest.exists_edits_resolve (m : Manifest) : ∃ edits, m.resolve = (Schema.ofManifest m).after edits := by
  obtain ⟨edits, h⟩ := Schema.exists_edits_foldl_meet _ (Schema.ofManifest m).bindResolvers
  exact ⟨.bindResolvers :: edits, h⟩

namespace Schema

theorem keyed_ofManifest {m : Manifest} (hm : m.objects.names.Nodup) : (ofManifest m).Keyed := by
  refine ⟨⟨by simpa [ofManifest, Dict.names, Function.comp_def] using hm, fun e he => ?_⟩, .nil, .nil⟩
  obtain ⟨e', _, rfl⟩ := List.mem_map.mp he
  rfl

/-- A schema to begin with: an empty one, or that of a manifest. As in every dictionary, no two objects that a manifest
declares have the same name. -/
inductive Initial : Schema → Prop where
  | empty : Initial {}
  | resolved {m : Manifest} (hm : m.objects.names.Nodup) : Initial m.resolve

theorem Initial.keyed {s : Schema} (h : s.Initial) : s.Keyed := by
  cases h with
  | empty => exact ⟨.nil, .nil, .nil⟩
  | @resolved m hm =>
      obtain ⟨edits, hedits⟩ := m.exists_edits_resolve
      rw [hedits]
      exact (keyed_ofManifest hm).after edits

/-- After any edits of a schema, each location is listed once and the look-up finds just what is listed; each object
stands under its own name; an addition tells whether the name is new, and leaves what is there; and what has been added
stays where it is, errors included, whatever is edited later. -/
theorem Initial.after_indexed {s : Schema} (h : s.Initial) (edits : List Edit) :
    (s.after edits).Indexed ∧ (s.after edits).Keyed ∧ (s.after edits).Additive ∧
      ∀ later, (s.after edits).Grown (s.after (edits ++ later)) := by
  have hkeyed := h.keyed.after edits
  refine ⟨hkeyed.indexed, hkeyed, (s.after edits).additive, fun later => ?_⟩
  rw [after_append]
  exact grown_after _ later

def persons : Manifest where
  version := "v2"
  objects := [("Person", [.typed "name" default, { name := "pet", resolver := some { action := "get" } }])]
  queries := [{ name := "persons", type := { name := "Person", isList := true }, resolver := some { action := "list" } }]
  sources := [("default", { lambda := some {} })]

/-- A person gets another pet before the name, a query is added that cannot be bound, and a filter that is there. -/
def personEdits : List Edit :=
  [.setObject { name := "Person", fields :=
      [{ name := "pet", resolver := some { action := "get" } }, .typed "name" default,
        { name := "second", resolver := some { action := "get" } }] },
    .removeSource "default", .addQuery { name := "person", resolver := some { action := "get" } }, .bindResolvers,
    .addFilter { name := "PersonFilter", fields := [] }]

theorem persons_after_indexed :
    persons.resolve.Initial ∧
      ((persons.resolve.after personEdits).Indexed ∧ (persons.resolve.after personEdits).Keyed ∧
        (persons.resolve.after personEdits).Additive ∧
        ∀ later, (persons.resolve.after personEdits).Grown (persons.resolve.after (personEdits ++ later))) ∧
      (persons.resolve.after personEdits).resolvers.map (·.1) =
        [.query 0, .query 1, .field "Person" 0, .field "Person" 2] ∧
      (persons.resolve.after personEdits).filters.map (fun e => (e.1, e.2.fields.length)) = [("PersonFilter", 1)] ∧
      (persons.resolve.after personEdits).errors.length = 4 := by
  have hinitial : persons.resolve.Initial := .resolved (by decide)
  exact ⟨hinitial, hinitial.after_indexed personEdits, by decide, by decide, by decide⟩

end Schema

end ApiManifest
