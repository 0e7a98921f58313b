import ApiManifest.Proofs.Schema.Derivation
import ApiManifest.Proofs.Schema.Locations
import ApiManifest.Schema.Sdl

/-!
# References to derived types

The signature of a resolver may refer to a filter, a connection or an input that has to be derived. In a
schema without errors the document defines all of these, but for inputs that no mutation calls for.
-/

namespace ApiManifest

/-! ## References -/

def ResolverOf.references (r : Resolver) : List String :=
  match r.binding with
  | none => []
  | some b =>
    if b.isNested then []
    else
      match b.action with
      | .list => [filterName b.returnType.name, b.returnType.name ++ "Connection"]
      | action => (inputName? b.returnType.name action).toList

theorem ResolverOf.mem_references {r : Resolver} {name : String} :
    name ∈ r.references ↔ ∃ b, r.binding = some b ∧ b.isNested = false ∧
      (b.action = .list ∧ (name = filterName b.returnType.name ∨ name = b.returnType.name ++ "Connection") ∨
        inputName? b.returnType.name b.action = some name) := by
  unfold references
  cases r.binding with
  | none => simp
  | some b =>
      cases hn : b.isNested with
      | true => simp [hn]
      | false => cases ha : b.action <;> simp [hn, ha, inputName?, eq_comm (a := name)]

theorem ResolverOf.signature?_of_mem_references {r : Resolver} {name : String} (h : name ∈ r.references) :
    ∃ before after, r.signature? = some (before ++ ": " ++ name ++ after) := by
  obtain ⟨b, hb, hn, h⟩ := mem_references.mp h
  rcases h with ⟨ha, rfl | rfl⟩ | h
  · refine ⟨b.fieldName ++ "(filter", ", limit: Int, nextToken: String): " ++ b.returnType.name ++ "Connection!", ?_⟩
    simp [signature?, argumentList, hb, hn, ha, filterName, ← String.toList_inj]
  · refine ⟨b.fieldName ++ r.argumentList, "!", ?_⟩
    simp [signature?, hb, hn, ha, ← String.toList_inj]
  · refine ⟨b.fieldName ++ "(input", "): " ++ b.returnType.shorthand, ?_⟩
    cases ha : b.action <;> simp only [inputName?, ha, Option.some.injEq, reduceCtorEq] at h <;> subst h <;>
      simp [signature?, argumentList, hb, hn, ha, ← String.toList_inj]

/-! ## Blocks and their names -/

namespace Sdl

theorem mem_blocks {s : Schema} {block : Block} :
    block ∈ blocks s ↔
      (∃ e ∈ s.enums, ofEnum e.1 e.2 = block) ∨ (∃ e ∈ s.objects, ofObject e.2 = block) ∨
      (∃ base ∈ s.connections, ofConnection base = block) ∨ (∃ e ∈ s.filters, ofInput e.2 = block) ∨
      (∃ e ∈ s.inputs, ofInput e.2 = block) ∨ block ∈ ofOperations queryType s.queries ∨
      block ∈ ofOperations mutationType s.mutations ∨ block ∈ scalarFilters := by
  simp [blocks, Dict.values]

theorem mem_ofOperations {name : String} {os : List Operation} {block : Block} :
    block ∈ ofOperations name os ↔
      os ≠ [] ∧ block = { keyword := "type", name, lines := os.map (·.signature) } := by
  cases os with
  | nil => simp [ofOperations]
  | cons o os => simp [ofOperations]

theorem exists_line {s : Schema} {l : Location} {r : Resolver} {line : String}
    (hr : (l, r) ∈ s.resolvers) (hl : r.signature? = some line) :
    ∃ block ∈ blocks s, line ∈ block.lines := by
  have hline : ∀ (o : Operation) (os : List Operation), o ∈ os → o.resolver = some r →
      line ∈ os.map (·.signature) := by
    intro o os ho hor
    exact List.mem_map.mpr ⟨o, ho, by simp [Operation.signature, hor, hl]⟩
  simp only [mem_blocks, mem_ofOperations]
  rcases Schema.mem_resolvers.mp hr with ⟨i, o, ho, hor, rfl⟩ | ⟨i, o, ho, hor, rfl⟩ | ⟨e, he, i, f, hf, hfr, rfl⟩
  · have hm := List.mem_of_getElem? ho
    refine ⟨{ keyword := "type", name := queryType, lines := s.queries.map (·.signature) }, ?_, hline o _ hm hor⟩
    simp [List.ne_nil_of_mem hm]
  · have hm := List.mem_of_getElem? ho
    refine ⟨{ keyword := "type", name := mutationType, lines := s.mutations.map (·.signature) }, ?_, hline o _ hm hor⟩
    simp [List.ne_nil_of_mem hm]
  · have hm := List.mem_of_getElem? hf
    exact ⟨ofObject e.2, Or.inr (Or.inl ⟨e, he, rfl⟩), List.mem_map.mpr ⟨f, hm, by simp [Field.line, hfr, hl]⟩⟩

theorem name_ne_inputName {t name : String} {a : Action} (h : inputName? t a = some name) :
    (∀ base : String, base ++ "Connection" ≠ name) ∧ (∀ base, filterName base ≠ name) ∧
      name ≠ queryType ∧ name ≠ mutationType ∧ ∀ block ∈ scalarFilters, block.name ≠ name := by
  have hlast : name.toList.getLast? = some 't' := by
    cases a <;> simp only [inputName?, Option.some.injEq, reduceCtorEq] at h <;> subst h <;>
      simp [List.getLast?_cons]
  have hhead : name.toList.head? = some 'C' ∨ name.toList.head? = some 'U' := by
    cases a <;> simp only [inputName?, Option.some.injEq, reduceCtorEq] at h <;> subst h <;> simp
  refine ⟨?_, ?_, ?_, ?_, ?_⟩
  · rintro base rfl
    simp at hlast
  · rintro base rfl
    simp [filterName] at hlast
  · rintro rfl
    simp [queryType] at hhead
  · rintro rfl
    simp [mutationType] at hhead
  · have hT : ∀ block ∈ scalarFilters, block.name.toList.head? = some 'T' := by
      simp [scalarFilters, filterableScalars, scalarFilterName]
    rintro block hb rfl
    simp [hT block hb] at hhead

end Sdl

/-! ## Calls in a schema without errors -/

theorem listedType?_eq_some {x : Location × Resolver} {t : String} :
    listedType? x = some t ↔ ∃ b, x.2.binding = some b ∧ b.action = .list ∧ b.returnType.name = t := by
  simp [listedType?, Option.bind_eq_some_iff]

theorem pagedType?_eq_some {x : Location × Resolver} {t : String} :
    pagedType? x = some t ↔
      ∃ b, x.2.binding = some b ∧ b.action = .list ∧ b.isNested = false ∧ b.returnType.name = t := by
  simp [pagedType?, Option.bind_eq_some_iff, and_assoc]

theorem inputCall?_eq_some {x : Location × Resolver} {c : String × Action} :
    inputCall? x = some c ↔ (∃ i, x.1 = .mutation i) ∧
      ∃ b, x.2.binding = some b ∧ (b.action = .insert ∨ b.action = .update) ∧ (b.returnType.name, b.action) = c := by
  obtain ⟨l, r⟩ := x
  cases l <;> simp [inputCall?, Option.bind_eq_some_iff]

namespace Schema

variable {s : Schema} {earlier : List (Location × Resolver)} {x : Location × Resolver} {t : String}

theorem exists_diagnosticsAt_eq_nil {xs : List (Location × Resolver)} (h : s.diagnosticsAfter earlier xs = [])
    (hx : x ∈ xs) : ∃ before, s.diagnosticsAt before x = [] := by
  induction xs generalizing earlier with
  | nil => cases hx
  | cons y ys ih =>
      rw [diagnosticsAfter, List.append_eq_nil_iff] at h
      rcases List.mem_cons.mp hx with rfl | hx
      · exact ⟨earlier, h.1⟩
      · exact ih h.2 hx

theorem declared_of_listed (h : s.diagnosticsAt earlier x = []) (hl : listedType? x = some t) :
    ∃ o, s.object? t = some o := by
  cases ho : s.object? t with
  | none => simp [diagnosticsAt, hl, ho] at h
  | some o => exact ⟨o, rfl⟩

theorem declared_of_inputCall {a : Action} (h : s.diagnosticsAt earlier x = [])
    (hi : inputCall? x = some (t, a)) : ∃ o, s.object? t = some o := by
  have hl : listedType? x = none := by
    rw [Option.eq_none_iff_forall_ne_some]
    intro t' hl
    obtain ⟨b, hb, hlist, _⟩ := listedType?_eq_some.mp hl
    obtain ⟨_, b', hb', ha, _⟩ := inputCall?_eq_some.mp hi
    cases hb.symm.trans hb'
    simp [hlist] at ha
  cases ho : s.object? t with
  | none => simp [diagnosticsAt, hl, hi, ho] at h
  | some o => exact ⟨o, rfl⟩

end Schema

namespace Manifest

variable {m : Manifest} {x : Location × Resolver} {t name : String}

theorem argsSource_eq (h : m.resolve.errors = []) {l : Location} {r : Resolver} {b : Binding}
    (hr : (l, r) ∈ m.resolve.resolvers) (hb : r.binding = some b) : b.argsSource = .ofParent l.parent := by
  rw [resolve_errors, List.append_eq_nil_iff, List.filterMap_eq_nil_iff] at h
  obtain ⟨d, hd, he⟩ := exists_declaration hr
  cases he
  rcases d.resolver.bind_cases (d.site m.sources) with ⟨b', hbind, hof⟩ | ⟨e, hbind⟩
  · rw [hbind] at hb
    cases hb
    rw [hof.argsSource, Declaration.site, Schema.parent_of_mem_declarations hd]
  · have he := h.1 d hd
    rw [Declaration.bind_eq, hbind] at he
    cases he

theorem exists_diagnosticsAt_eq_nil (h : m.resolve.errors = []) (hx : x ∈ m.resolve.resolvers) :
    ∃ before, m.resolve.diagnosticsAt before x = [] := by
  rw [resolve_errors, List.append_eq_nil_iff] at h
  exact Schema.exists_diagnosticsAt_eq_nil h.2 hx

theorem exists_filter_block (h : m.resolve.errors = []) (hx : x ∈ m.resolve.resolvers)
    (hl : listedType? x = some t) : ∃ block ∈ Sdl.blocks m.resolve, block.name = filterName t := by
  obtain ⟨before, hd⟩ := exists_diagnosticsAt_eq_nil h hx
  obtain ⟨o, ho⟩ := Schema.declared_of_listed hd hl
  have hf : (filterName t, o.filter) ∈ m.resolve.filters := by
    rw [resolve_filters, Schema.filtersOf, mem_firstUses]
    exact ⟨x, hx, t, hl, by simp [ho]⟩
  refine ⟨Sdl.ofInput o.filter, Sdl.mem_blocks.mpr ?_, ?_⟩
  · exact Or.inr (Or.inr (Or.inr (Or.inl ⟨_, hf, rfl⟩)))
  · simp [Sdl.ofInput, ObjectType.filter, m.resolve_named t o ho]

theorem exists_connection_block (h : m.resolve.errors = []) (hx : x ∈ m.resolve.resolvers)
    (hp : pagedType? x = some t) : ∃ block ∈ Sdl.blocks m.resolve, block.name = t ++ "Connection" := by
  obtain ⟨before, hd⟩ := exists_diagnosticsAt_eq_nil h hx
  obtain ⟨b, hb, ha, _, ht⟩ := pagedType?_eq_some.mp hp
  obtain ⟨o, ho⟩ := Schema.declared_of_listed hd (listedType?_eq_some.mpr ⟨b, hb, ha, ht⟩)
  have hc : t ∈ m.resolve.connections := by
    rw [resolve_connections, Schema.connectionsOf, mem_firstUses]
    exact ⟨x, hx, t, hp, by simp [ho]⟩
  exact ⟨Sdl.ofConnection t, Sdl.mem_blocks.mpr (Or.inr (Or.inr (Or.inl ⟨t, hc, rfl⟩))), rfl⟩

theorem exists_input_block (h : m.resolve.errors = []) (hx : x ∈ m.resolve.resolvers) {a : Action}
    (hi : inputCall? x = some (t, a)) (hn : inputName? t a = some name) :
    ∃ block ∈ Sdl.blocks m.resolve, block.name = name := by
  obtain ⟨before, hd⟩ := exists_diagnosticsAt_eq_nil h hx
  obtain ⟨o, ho⟩ := Schema.declared_of_inputCall hd hi
  have hc : (name, { name, fields := o.fields.filterMap (Field.inputField? a) }) ∈ m.resolve.inputs := by
    rw [resolve_inputs, Schema.inputsOf, mem_firstUses]
    exact ⟨x, hx, _, hi, by simp [Schema.inputOf, ho, hn]⟩
  exact ⟨_, Sdl.mem_blocks.mpr (Or.inr (Or.inr (Or.inr (Or.inr (Or.inl ⟨_, hc, rfl⟩))))), rfl⟩

/-- A block that has the name of an input is that of an enumeration, of an object, or of the input that
a mutation calls for. -/
theorem of_block_named_input {block : Block} {a : Action} (hb : block ∈ Sdl.blocks m.resolve)
    (hn : inputName? t a = some block.name) :
    block.name ∈ m.resolve.enums.names ∨ block.name ∈ m.resolve.objects.names ∨
      ∃ x ∈ m.resolve.resolvers, inputCall? x = some (t, a) := by
  obtain ⟨hconnection, hfilter, hquery, hmutation, hscalar⟩ := Sdl.name_ne_inputName hn
  rcases Sdl.mem_blocks.mp hb with ⟨e, he, rfl⟩ | ⟨e, he, rfl⟩ | ⟨base, _, rfl⟩ | ⟨e, he, rfl⟩ | ⟨e, he, rfl⟩ |
    hb | hb | hb
  · exact Or.inl (List.mem_map.mpr ⟨e, he, rfl⟩)
  · exact Or.inr (Or.inl (List.mem_map.mpr ⟨e, he, (m.resolve_objects_named e he).symm⟩))
  · exact absurd rfl (hconnection base)
  · rw [resolve_filters, Schema.filtersOf, mem_firstUses] at he
    obtain ⟨_, _, t', _, he⟩ := he
    obtain ⟨o, _, rfl⟩ := Option.map_eq_some_iff.mp he
    exact absurd rfl (hfilter o.name)
  · rw [resolve_inputs, Schema.inputsOf, mem_firstUses] at he
    obtain ⟨x, hx, c, hc, he⟩ := he
    obtain ⟨hname, hnamed⟩ := Schema.inputOf_name he
    have hcall := Schema.inputName?_inj hn (hnamed.symm ▸ hname : inputName? c.1 c.2 = some e.2.name)
    exact Or.inr (Or.inr ⟨x, hx, by rw [hc, hcall.1, hcall.2]⟩)
  · rw [Sdl.mem_ofOperations] at hb
    exact absurd (by rw [hb.2]) hquery
  · rw [Sdl.mem_ofOperations] at hb
    exact absurd (by rw [hb.2]) hmutation
  · exact absurd rfl (hscalar block hb)

theorem exists_block_of_list (h : m.resolve.errors = []) (hx : x ∈ m.resolve.resolvers)
    (hn : name ∈ x.2.references) (hl : ∃ b, x.2.binding = some b ∧ b.action = .list) :
    ∃ block ∈ Sdl.blocks m.resolve, block.name = name := by
  obtain ⟨b, hb, ha⟩ := hl
  obtain ⟨b', hb', hnested, hcall⟩ := ResolverOf.mem_references.mp hn
  cases hb.symm.trans hb'
  rcases hcall with ⟨_, rfl | rfl⟩ | hcall
  · exact exists_filter_block h hx (listedType?_eq_some.mpr ⟨b, hb, ha, rfl⟩)
  · exact exists_connection_block h hx (pagedType?_eq_some.mpr ⟨b, hb, ha, hnested, rfl⟩)
  · simp [ha, inputName?] at hcall

theorem exists_block_of_mutation (h : m.resolve.errors = []) {i : Nat} {r : Resolver}
    (hr : (.mutation i, r) ∈ m.resolve.resolvers) (hn : name ∈ r.references) :
    ∃ block ∈ Sdl.blocks m.resolve, block.name = name := by
  obtain ⟨b, hb, _, ⟨ha, _⟩ | hcall⟩ := ResolverOf.mem_references.mp hn
  · exact exists_block_of_list h hr hn ⟨b, hb, ha⟩
  · have ha : b.action = .insert ∨ b.action = .update := by
      cases ha : b.action <;> simp [ha, inputName?] at hcall ⊢
    exact exists_input_block h hr (inputCall?_eq_some.mpr ⟨⟨i, rfl⟩, b, hb, ha, rfl⟩) hcall

theorem mutation_of_inputCall (h : m.resolve.errors = []) (hx : x ∈ m.resolve.resolvers) {a : Action}
    (hi : inputCall? x = some (t, a)) (hn : inputName? t a = some name) :
    ∃ i r, (.mutation i, r) ∈ m.resolve.resolvers ∧ name ∈ r.references := by
  obtain ⟨l, r⟩ := x
  obtain ⟨⟨i, rfl⟩, b, hb, _, hc⟩ := inputCall?_eq_some.mp hi
  -- a resolver among the mutations is never nested
  have hnested : b.isNested = false := by
    rw [Binding.isNested, argsSource_eq h hx hb]
    rfl
  rw [Prod.mk.injEq] at hc
  rw [← hc.1, ← hc.2] at hn
  exact ⟨i, r, hx, ResolverOf.mem_references.mpr ⟨b, hb, hnested, Or.inr hn⟩⟩

/-- In a schema without errors, what the signature of a resolver refers to stands in the document. A
reference of a list is defined there; one of an insertion or an update is just if some mutation refers
to it too, or else an enumeration or an object goes by its name. -/
theorem references_defined (m : Manifest) (h : m.resolve.errors = []) {l : Location} {r : Resolver}
    (hr : (l, r) ∈ m.resolve.resolvers) (hn : name ∈ r.references) :
    (∃ before after, r.signature? = some (before ++ ": " ++ name ++ after) ∧
      ∃ block ∈ Sdl.blocks m.resolve, before ++ ": " ++ name ++ after ∈ block.lines) ∧
    ((∃ block ∈ Sdl.blocks m.resolve, block.name = name) ↔
      (∃ b, r.binding = some b ∧ b.action = .list) ∨
      (∃ i r', (.mutation i, r') ∈ m.resolve.resolvers ∧ name ∈ r'.references) ∨
      name ∈ m.resolve.enums.names ∨ name ∈ m.resolve.objects.names) := by
  constructor
  · obtain ⟨before, after, hs⟩ := ResolverOf.signature?_of_mem_references hn
    exact ⟨before, after, hs, Sdl.exists_line hr hs⟩
  · constructor
    · rintro ⟨block, hblock, rfl⟩
      obtain ⟨b, hb, _, ⟨ha, _⟩ | hcall⟩ := ResolverOf.mem_references.mp hn
      · exact Or.inl ⟨b, hb, ha⟩
      · rcases of_block_named_input hblock hcall with he | ho | ⟨x, hx, hi⟩
        · exact Or.inr (Or.inr (Or.inl he))
        · exact Or.inr (Or.inr (Or.inr ho))
        · exact Or.inr (Or.inl (mutation_of_inputCall h hx hi hcall))
    · rintro (hlist | ⟨i, r', hx, hname⟩ | he | ho)
      · exact exists_block_of_list h hr hn hlist
      · exact exists_block_of_mutation h hx hname
      · obtain ⟨e, hm, rfl⟩ := List.mem_map.mp he
        exact ⟨_, Sdl.mem_blocks.mpr (Or.inl ⟨e, hm, rfl⟩), rfl⟩
      · obtain ⟨e, hm, rfl⟩ := List.mem_map.mp ho
        exact ⟨_, Sdl.mem_blocks.mpr (Or.inr (Or.inl ⟨e, hm, rfl⟩)), m.resolve_objects_named e hm⟩

def insertingTwice : Manifest :=
  let insertion (name : String) : Operation :=
    { name, type := .named "Animal", resolver := some { action := "insert" } }
  { version := "v2"
    apiNameSuffix := "zoo"
    objects := [("Animal", [.typed "id" { name := "ID", nonNullable := true }, .typed "name" default])]
    queries := [insertion "addAnimal"]
    mutations := [insertion "createAnimal"]
    sources := [("default", { lambda := some {} })] }

theorem insertingTwice_references_defined :
    insertingTwice.resolve.errors = [] ∧
    ∃ r, (.query 0, r) ∈ insertingTwice.resolve.resolvers ∧ "CreateAnimalInput" ∈ r.references ∧
      ∃ block ∈ Sdl.blocks insertingTwice.resolve, block.name = "CreateAnimalInput" := by
  let r : Resolver := (insertingTwice.resolve.resolverAt? (.query 0)).getD { action := "" }
  have hr : (.query 0, r) ∈ insertingTwice.resolve.resolvers := List.mem_cons_self
  have hn : "CreateAnimalInput" ∈ r.references := by decide
  have h : insertingTwice.resolve.errors = [] := by decide
  exact ⟨h, r, hr, hn, (references_defined insertingTwice h hr hn).2.mpr
    (Or.inr (Or.inl ⟨0, _, List.mem_cons_of_mem _ List.mem_cons_self, by decide⟩))⟩

def insertingByQuery : String :=
  "version: v2\napiNameSuffix: zoo\nobjects:\n  Animal:\n    - name: id\n      type: ID!\n    - name: name\n" ++
    "queries:\n  - name: addAnimal\n    type: Animal\n    resolver:\n      action: insert\n" ++
    "sources:\n  default:\n    lambda: \x7b\x7d\n"

/-- Its document refers to an input that it does not define. -/
theorem insertingByQuery_undefined :
    ∃ m, Manifest.parse (Text.Utf8.encode insertingByQuery) = .ok m ∧ m.resolve.errors = [] ∧
      (∃ block ∈ Sdl.blocks m.resolve, "addAnimal(input: CreateAnimalInput): Animal" ∈ block.lines) ∧
      ∀ block ∈ Sdl.blocks m.resolve, block.name ≠ "CreateAnimalInput" := by
  have check : (match Manifest.parse (Text.Utf8.encode insertingByQuery) with
      | .ok m => decide (m.resolve.errors = [] ∧
          (∃ block ∈ Sdl.blocks m.resolve, "addAnimal(input: CreateAnimalInput): Animal" ∈ block.lines) ∧
          ∀ block ∈ Sdl.blocks m.resolve, block.name ≠ "CreateAnimalInput")
      | .error _ => false) = true := by
    decide +kernel
  cases hm : Manifest.parse (Text.Utf8.encode insertingByQuery) with
  | error e => simp [hm] at check
  | ok m =>
      rw [hm] at check
      exact ⟨m, rfl, of_decide_eq_true check⟩

end Manifest

end ApiManifest
