import ApiManifest.Proofs.Lists
import ApiManifest.Proofs.Manifest.Decoding
import ApiManifest.Proofs.Schema.References

/-!
# Definitions in the document

The document of a schema defines the declared enumerations and objects, and besides these the types that are
derived, the operation types and the filters of scalars. The names of the latter never coincide, so that only a
declared name can be defined twice.
-/

namespace ApiManifest

namespace Sdl

/-! ## Names that are not declared -/

/-- The names that the document gives to types besides the declared ones. -/
inductive Gives (s : Schema) : String → Prop where
  | connection {base : String} (h : base ∈ s.connections) : Gives s (base ++ "Connection")
  | filter {name : String} (h : name ∈ s.filters.names) : Gives s name
  | input {name : String} (h : name ∈ s.inputs.names) : Gives s name
  | query (h : s.queries ≠ []) : Gives s queryType
  | mutation (h : s.mutations ≠ []) : Gives s mutationType
  | scalarFilter {scalar : String} (h : scalar ∈ "Boolean" :: filterableScalars) : Gives s (scalarFilterName scalar)

def givenNames (s : Schema) : List String :=
  s.connections.map (· ++ "Connection") ++ (s.filters.names ++ (s.inputs.names ++
    ((ofOperations queryType s.queries ++ ofOperations mutationType s.mutations).map (·.name) ++
      scalarFilters.map (·.name))))

theorem mem_givenNames {s : Schema} {name : String} : name ∈ givenNames s ↔ Gives s name := by
  have hscalars : scalarFilters.map (·.name) = ("Boolean" :: filterableScalars).map scalarFilterName := rfl
  simp only [givenNames, hscalars, List.mem_append, List.map_append, List.mem_map, mem_ofOperations]
  constructor
  · rintro (⟨base, h, rfl⟩ | h | h | (⟨_, ⟨h, rfl⟩, rfl⟩ | ⟨_, ⟨h, rfl⟩, rfl⟩) | ⟨scalar, h, rfl⟩)
    · exact .connection h
    · exact .filter h
    · exact .input h
    · exact .query h
    · exact .mutation h
    · exact .scalarFilter h
  · rintro (h | h | h | h | h | h)
    · exact .inl ⟨_, h, rfl⟩
    · exact .inr (.inl h)
    · exact .inr (.inr (.inl h))
    · exact .inr (.inr (.inr (.inl (.inl ⟨_, ⟨h, rfl⟩, rfl⟩))))
    · exact .inr (.inr (.inr (.inl (.inr ⟨_, ⟨h, rfl⟩, rfl⟩))))
    · exact .inr (.inr (.inr (.inr ⟨_, h, rfl⟩)))

theorem nodup_operationNames (queries mutations : List Operation) :
    ((ofOperations queryType queries ++ ofOperations mutationType mutations).map (·.name)).Nodup := by
  cases queries <;> cases mutations <;> simp [ofOperations, queryType, mutationType]

end Sdl

namespace Manifest

open Sdl

theorem filter_named (m : Manifest) : ∀ e ∈ m.resolve.filters, e.2.name = e.1 ∧ ∃ t, e.1 = filterName t := by
  intro e he
  rw [resolve_filters] at he
  obtain ⟨x, _, t, _, he⟩ := mem_firstUses.mp he
  obtain ⟨o, ho, rfl⟩ := Option.map_eq_some_iff.mp he
  exact ⟨congrArg filterName (m.resolve_named t o ho), t, rfl⟩

theorem input_named (m : Manifest) : ∀ e ∈ m.resolve.inputs, e.2.name = e.1 ∧ ∃ t a, inputName? t a = some e.1 := by
  intro e he
  rw [resolve_inputs] at he
  obtain ⟨x, _, c, _, he⟩ := mem_firstUses.mp he
  obtain ⟨hname, hnamed⟩ := Schema.inputOf_name he
  exact ⟨hnamed, c.1, c.2, hname⟩

theorem names_blocks (m : Manifest) :
    (blocks m.resolve).map (·.name) = m.resolve.enums.names ++ m.resolve.objects.names ++ givenNames m.resolve := by
  have hvalues : ∀ d : Dict ObjectType, (∀ e ∈ d, e.2.name = e.1) → d.values.map (·.name) = d.names := by
    intro d hd
    rw [Dict.values, Dict.names, List.map_map]
    exact List.map_congr_left hd
  have hobjects := hvalues _ m.resolve_objects_named
  have hfilters := hvalues _ fun e he => (m.filter_named e he).1
  have hinputs := hvalues _ fun e he => (m.input_named e he).1
  have henums : (m.resolve.enums.map fun e => ofEnum e.1 e.2).map (·.name) = m.resolve.enums.names := by
    rw [List.map_map]
    rfl
  have hblocks : ∀ os : List ObjectType, (os.map ofObject).map (·.name) = os.map (·.name) ∧
      (os.map ofInput).map (·.name) = os.map (·.name) := by
    intro os
    simp only [List.map_map]
    exact ⟨rfl, rfl⟩
  have hconnections : (m.resolve.connections.map ofConnection).map (·.name) =
      m.resolve.connections.map (· ++ "Connection") := by
    rw [List.map_map]
    rfl
  simp only [blocks, givenNames, List.map_append, henums, hblocks, hconnections, hobjects, hfilters, hinputs,
    List.append_assoc]

/-- Names of different kinds differ in their last or first letters, or in their length. -/
theorem nodup_givenNames (m : Manifest) : (givenNames m.resolve).Nodup := by
  obtain ⟨⟨-, hfilters⟩, ⟨-, hconnections⟩, ⟨-, hinputs⟩, -⟩ := m.resolve_derives_calls
  have hconnection : ∀ n ∈ m.resolve.connections.map (· ++ "Connection"),
      n.toList.getLast? = some 'n' ∧ 10 ≤ n.toList.length := by
    simp [List.getLast?_cons]
  have hfilter : ∀ n ∈ m.resolve.filters.names, n.toList.getLast? = some 'r' := by
    rw [Dict.names, List.forall_mem_map]
    intro e he
    obtain ⟨-, t, ht⟩ := m.filter_named e he
    simp [ht, filterName, List.getLast?_cons]
  have hinput : ∀ n ∈ m.resolve.inputs.names, n.toList.getLast? = some 't' ∧ n.toList.head? ≠ some 'T' := by
    rw [Dict.names, List.forall_mem_map]
    intro e he
    obtain ⟨-, t, a, ht⟩ := m.input_named e he
    cases a <;> simp only [inputName?, Option.some.injEq, reduceCtorEq] at ht <;> simp [← ht, List.getLast?_cons]
  have hoperation : ∀ n ∈ (ofOperations queryType m.resolve.queries ++
      ofOperations mutationType m.resolve.mutations).map (·.name), n = queryType ∨ n = mutationType := by
    simp only [List.mem_map, List.mem_append, mem_ofOperations]
    rintro n ⟨block, ⟨-, rfl⟩ | ⟨-, rfl⟩, rfl⟩
    · exact .inl rfl
    · exact .inr rfl
  have hscalar : ∀ n ∈ scalarFilters.map (·.name), n.toList.getLast? = some 't' ∧ n.toList.head? = some 'T' := by
    simp [scalarFilters, filterableScalars, scalarFilterName]
  have hoperation' : ∀ n ∈ (ofOperations queryType m.resolve.queries ++
      ofOperations mutationType m.resolve.mutations).map (·.name),
      n.toList.getLast? ≠ some 'r' ∧ n.toList.getLast? ≠ some 't' ∧ n.toList.length < 10 := by
    intro n hn
    rcases hoperation n hn with rfl | rfl <;> decide
  have hpaged : (m.resolve.connections.map (· ++ "Connection")).Nodup :=
    List.Pairwise.map _ (fun t t' hne ht => hne ((String.append_left_inj _).mp ht)) hconnections
  -- each group is told from all that come after it
  refine nodup_append_of_forall hpaged ?_ hconnection ?_
  · refine nodup_append_of_forall hfilters ?_ hfilter ?_
    · refine nodup_append_of_forall hinputs ?_ hinput ?_
      · refine nodup_append_of_forall (nodup_operationNames _ _) (by decide) hoperation ?_
        rintro _ hn (rfl | rfl) <;> simpa [queryType, mutationType] using hscalar _ hn
      · simp only [List.forall_mem_append]
        exact ⟨fun n hn hi => (hoperation' n hn).2.1 hi.1, fun n hn hi => hi.2 (hscalar n hn).2⟩
    · simp only [List.forall_mem_append]
      refine ⟨fun n hn hf => ?_, fun n hn => (hoperation' n hn).1, fun n hn hf => ?_⟩
      · simp [(hinput n hn).1] at hf
      · simp [(hscalar n hn).1] at hf
  · simp only [List.forall_mem_append]
    refine ⟨fun n hn hc => ?_, fun n hn hc => ?_, fun n hn hc => ?_, fun n hn hc => ?_⟩
    · simp [hfilter n hn] at hc
    · simp [(hinput n hn).1] at hc
    · exact Nat.not_le_of_lt (hoperation' n hn).2.2 hc.2
    · simp [(hscalar n hn).1] at hc

/-- The document of a manifest's schema defines each type once if and only if no declared name is taken twice: by
an enumeration and an object, or by one of these and a type that the document defines besides. -/
theorem definitions_distinct {bytes : List UInt8} {m : Manifest} (h : parse bytes = .ok m) :
    ((blocks m.resolve).map (·.name)).Nodup ↔
      (∀ name ∈ m.resolve.enums.names, name ∉ m.resolve.objects.names) ∧
        ∀ name, Gives m.resolve name → name ∉ m.resolve.enums.names ∧ name ∉ m.resolve.objects.names := by
  have hread := parse_wellRead h
  have henums : m.resolve.enums.names.Nodup := by
    rw [resolve_eq_derived]
    exact hread.enumNames
  have hobjects : m.resolve.objects.names.Nodup := by
    rw [resolve_objects, Dict.names, List.map_map]
    exact hread.objectNames
  simp only [names_blocks, List.nodup_append, henums, hobjects, m.nodup_givenNames, ← mem_givenNames]
  constructor
  · rintro ⟨⟨-, -, hdeclared⟩, -, hgiven⟩
    refine ⟨fun name he ho => hdeclared name he name ho rfl, fun name hname => ⟨fun he => ?_, fun ho => ?_⟩⟩
    · exact hgiven name (List.mem_append_left _ he) name hname rfl
    · exact hgiven name (List.mem_append_right _ ho) name hname rfl
  · rintro ⟨hdeclared, hgiven⟩
    refine ⟨⟨trivial, trivial, ?_⟩, trivial, ?_⟩
    · rintro name he _ ho rfl
      exact hdeclared name he ho
    · rintro name hdecl _ hname rfl
      exact (List.mem_append.mp hdecl).elim (hgiven name hname).1 (hgiven name hname).2

def animalPages : String :=
  "version: v2\napiNameSuffix: zoo\nobjects:\n  Animal:\n    - name: id\n      type: ID!\n    - name: name\n" ++
    "queries:\n  - name: animals\n    type: '[Animal]'\n    resolver:\n      action: list\n" ++
    "mutations:\n  - name: createAnimal\n    type: Animal\n    resolver:\n      action: insert\n" ++
    "sources:\n  default:\n    lambda: \x7b\x7d\n"

theorem animalPages_distinct :
    ∃ m, parse (Text.Utf8.encode animalPages) = .ok m ∧
      ["Animal", "AnimalConnection", "AnimalFilter", "CreateAnimalInput", "Query", "Mutation"] ⊆
        (blocks m.resolve).map (·.name) ∧
      ((blocks m.resolve).map (·.name)).Nodup := by
  have check : (parse (Text.Utf8.encode animalPages)).toOption.map (fun m => decide (
      ["Animal", "AnimalConnection", "AnimalFilter", "CreateAnimalInput", "Query", "Mutation"] ⊆
        (blocks m.resolve).map (·.name) ∧
      (∀ name ∈ m.resolve.enums.names, name ∉ m.resolve.objects.names) ∧
      ∀ name ∈ givenNames m.resolve, name ∉ m.resolve.enums.names ∧ name ∉ m.resolve.objects.names)) = some true := by
    decide +kernel
  obtain ⟨m, hm, hdecided⟩ := toOption_map_eq_some.mp check
  obtain ⟨hnames, hdeclared, hgiven⟩ := of_decide_eq_true hdecided
  exact ⟨m, hm, hnames,
    (definitions_distinct hm).mpr ⟨hdeclared, fun name hname => hgiven name (mem_givenNames.mpr hname)⟩⟩

def animalTwice : String :=
  "version: v2\napiNameSuffix: zoo\nenums:\n  Animal:\n    - CAT\nobjects:\n  Animal:\n    - name: id\n      type: ID!\n" ++
    "sources:\n  default:\n    lambda: \x7b\x7d\n"

/-- It is accepted, its schema has no errors, and its document defines a type twice. -/
theorem animalTwice_defined_twice :
    ∃ m, parse (Text.Utf8.encode animalTwice) = .ok m ∧ m.resolve.errors = [] ∧
      ¬ ((blocks m.resolve).map (·.name)).Nodup := by
  have check : (parse (Text.Utf8.encode animalTwice)).toOption.map (fun m => decide (
      m.resolve.errors = [] ∧ ¬ ((blocks m.resolve).map (·.name)).Nodup)) = some true := by
    decide +kernel
  obtain ⟨m, hm, hdecided⟩ := toOption_map_eq_some.mp check
  exact ⟨m, hm, of_decide_eq_true hdecided⟩

end Manifest

end ApiManifest
