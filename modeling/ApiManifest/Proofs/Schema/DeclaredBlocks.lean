import ApiManifest.Proofs.Manifest.Decoding
import ApiManifest.Proofs.Schema.Derivation
import ApiManifest.Proofs.Text.Utf8
import ApiManifest.Schema.Sdl

/-!
# Declared types in the document

What the document says of declared enumerations and objects does not depend on which resolvers are bound: the field that
a resolver serves has the type that the resolver returns, bound or not. Only a field of the query or the mutation type
takes arguments once its resolver is bound.
-/

namespace ApiManifest

/-! ## Lines -/

namespace Field

/-- The line of a field that the resolvers leave alone: its type, or the one that its resolver returns, or a string if
that one tells none. -/
inductive PrintsAs (f : Field) : String → Prop where
  | typed {t : FieldType} (ht : f.type = some t) (hq : f.resolver = none) : PrintsAs f (f.name ++ ": " ++ t.shorthand)
  | served {q : Resolver} {t : FieldType} (hq : f.resolver = some q) (ht : q.type = some t) :
      PrintsAs f (f.name ++ ": " ++ t.shorthand)
  | untold {q : Resolver} (hq : f.resolver = some q) (ht : q.type = none) : PrintsAs f (f.name ++ ": " ++ "String")

variable {f : Field} {sources : Dict DataSource} {parent : String}

theorem line_fresh {q : Resolver} (hq : q.binding = none) (name : String) (inputType : Option FieldType) :
    line { name, resolver := some q, inputType } = name ++ ": " ++ (q.type.getD (.named "String")).shorthand := by
  have hnone : q.signature? = none := by rw [ResolverOf.signature?, hq, Option.map_none]
  simp only [line, Option.bind_some, hnone]
  rfl

theorem line_bind (hf : f.Sound) (hquery : parent ≠ queryType) (hmutation : parent ≠ mutationType) :
    (f.bind sources parent).1.line = f.line := by
  rw [bind_fst]
  cases hf with
  | typed => rfl
  | @resolved name q inputType hname hq hinput =>
      rw [line_fresh hq.fresh.1, Option.map_some]
      rcases q.bind_cases ⟨sources, parent, name, q.type.getD (.named "String")⟩ with ⟨b, hbind, hof⟩ | ⟨e, hbind⟩
      · have hnested : b.isNested = true := by
          rw [Binding.isNested, hof.argsSource, ArgsSource.ofParent, if_neg (by simp [hquery, hmutation])]
          rfl
        simp only [Site.bind] at hbind
        simp only [line, Option.bind_some, hbind, ResolverOf.signature?, Option.map_some, hnested, if_true,
          hof.fieldName, hof.returnType]
      · simp only [Site.bind] at hbind
        rw [hbind]
        exact line_fresh hq.fresh.1 name inputType

theorem Sound.printsAs (hf : f.Sound) : f.PrintsAs f.line := by
  cases hf with
  | typed => exact .typed rfl rfl
  | @resolved name q inputType hname hq hinput =>
      rw [line_fresh hq.fresh.1]
      cases ht : q.type with
      | none => exact .untold rfl ht
      | some t => exact .served rfl ht

end Field

/-! ## Blocks -/

namespace Manifest

variable {m : Manifest}

theorem exists_sdl (m : Manifest) : ∃ back, m.resolve.sdl =
    String.join (((m.enums.map fun e => Sdl.ofEnum e.1 e.2) ++ m.resolve.objects.values.map Sdl.ofObject).map
      Block.render) ++ back := by
  have hblocks : ∃ rest, Sdl.blocks m.resolve =
      (m.enums.map fun e => Sdl.ofEnum e.1 e.2) ++ m.resolve.objects.values.map Sdl.ofObject ++ rest := by
    simp only [Sdl.blocks, resolve_enums, List.append_assoc, List.append_cancel_left_eq, exists_eq']
  obtain ⟨rest, hrest⟩ := hblocks
  refine ⟨String.join (rest.map Block.render) ++
    if (Sdl.roots m.resolve).isEmpty then "" else Block.text "schema" (Sdl.roots m.resolve), ?_⟩
  rw [Schema.sdl, hrest, List.map_append, String.join_append, String.append_assoc]

theorem objectBlocks_eq (m : Manifest) (hm : ∀ e ∈ m.objects, ∀ f ∈ e.2, f.Sound) {i : Nat} {name : String}
    {fields : List Field} (hi : m.objects[i]? = some (name, fields)) (hquery : name ≠ queryType)
    (hmutation : name ≠ mutationType) :
    (m.resolve.objects.values.map Sdl.ofObject)[i]? =
      some { keyword := "type", name, lines := fields.map Field.line } := by
  have hlines : ∀ f ∈ fields, (f.bind m.sources name).1.line = f.line := fun f hf =>
    Field.line_bind (hm _ (List.mem_of_getElem? hi) f hf) hquery hmutation
  simp only [resolve_objects, Dict.values, List.map_map, List.getElem?_map, hi, Option.map_some, Function.comp_def,
    Sdl.ofObject, ObjectType.bind_fst, List.map_congr_left hlines]

theorem names_objectBlocks (m : Manifest) :
    (m.resolve.objects.values.map Sdl.ofObject).map (·.name) = m.objects.names := by
  simp only [resolve_objects, Dict.values, Dict.names, List.map_map]
  rfl

/-- The documents of a manifest with one or other sources begin with the same blocks of enumerations, and have the same
block in the same place for every declared object but for the types of operations, whatever resolvers are bound. -/
theorem declared_alike {r : Reading} {n : Yaml.Node} (h : decode r n = .ok m) (sources sources' : Dict DataSource) :
    ∃ (objects objects' : List Block) (back back' : String),
      ({ m with sources } : Manifest).resolve.sdl =
        String.join (((m.enums.map fun e => Sdl.ofEnum e.1 e.2) ++ objects).map Block.render) ++ back ∧
      ({ m with sources := sources' } : Manifest).resolve.sdl =
        String.join (((m.enums.map fun e => Sdl.ofEnum e.1 e.2) ++ objects').map Block.render) ++ back' ∧
      objects.map (·.name) = m.objects.names ∧ objects'.map (·.name) = m.objects.names ∧
      ∀ (i : Nat) (name : String) (fields : List Field), m.objects[i]? = some (name, fields) →
        name ≠ queryType → name ≠ mutationType →
        ∃ lines, List.Forall₂ Field.PrintsAs fields lines ∧
          objects[i]? = some { keyword := "type", name, lines } ∧
          objects'[i]? = some { keyword := "type", name, lines } := by
  have hsound := (decode_sound h).fields
  obtain ⟨back, hback⟩ := exists_sdl { m with sources }
  obtain ⟨back', hback'⟩ := exists_sdl { m with sources := sources' }
  refine ⟨_, _, back, back', hback, hback', names_objectBlocks _, names_objectBlocks _, ?_⟩
  intro i name fields hi hquery hmutation
  refine ⟨fields.map Field.line, ?_, objectBlocks_eq { m with sources } hsound hi hquery hmutation,
    objectBlocks_eq { m with sources := sources' } hsound hi hquery hmutation⟩
  have hfields := hsound _ (List.mem_of_getElem? hi)
  rw [List.forall₂_map_right_iff, List.forall₂_same]
  exact fun f hf => (hfields f hf).printsAs

def friendsAndKeeper : String :=
  "version: v2\nobjects:\n  Animal:\n    - name: id\n      type: ID!\n    - name: friends\n      resolver:\n" ++
    "        action: list\n        type: [Animal]\n    - name: keeper\n      resolver:\n        action: get\n"

def defaultLambda : Dict DataSource :=
  [("default", { lambda := some {} })]

theorem friendsAndKeeper_read :
    ∃ m fields, decode .text (Yaml.Stream.ofBytes (Text.Utf8.encode friendsAndKeeper)).document = .ok m ∧
      m.enums = [] ∧ m.objects = [("Animal", fields)] ∧ fields.length = 3 ∧
      ({ m with sources := defaultLambda } : Manifest).resolve.boundResolvers.length = 2 ∧
      ({ m with sources := [] } : Manifest).resolve.boundResolvers.length = 0 := by
  have check : (decode .text (Yaml.Stream.ofBytes (Text.Utf8.encode friendsAndKeeper)).document).toOption.map (fun m =>
      decide (m.enums = [] ∧ m.objects.map (fun e => (e.1, e.2.length)) = [("Animal", 3)] ∧
        ({ m with sources := defaultLambda } : Manifest).resolve.boundResolvers.length = 2 ∧
        ({ m with sources := [] } : Manifest).resolve.boundResolvers.length = 0)) = some true := by
    rw [Text.Utf8.encode_eq_data]
    decide +kernel
  obtain ⟨m, hm, hdecided⟩ := toOption_map_eq_some.mp check
  obtain ⟨henums, hobjects, hbound, hunbound⟩ := of_decide_eq_true hdecided
  obtain ⟨⟨name, fields⟩, hdeclared, hnamed⟩ := List.map_eq_singleton_iff.mp hobjects
  obtain ⟨rfl, hlength⟩ := Prod.mk.inj hnamed
  exact ⟨m, fields, hm, henums, hdeclared, hlength, hbound, hunbound⟩

/-- With a source both resolvers are bound, and without one neither is; animals are of the same type. -/
theorem friendsAndKeeper_alike :
    ∃ m, decode .text (Yaml.Stream.ofBytes (Text.Utf8.encode friendsAndKeeper)).document = .ok m ∧
      ({ m with sources := defaultLambda } : Manifest).resolve.boundResolvers.length = 2 ∧
      ({ m with sources := [] } : Manifest).resolve.boundResolvers.length = 0 ∧
      ∃ (fields : List Field) (lines : List String) (objects objects' : List Block) (back back' : String),
        fields.length = 3 ∧ List.Forall₂ Field.PrintsAs fields lines ∧
        ({ m with sources := defaultLambda } : Manifest).resolve.sdl = String.join (objects.map Block.render) ++ back ∧
        ({ m with sources := [] } : Manifest).resolve.sdl = String.join (objects'.map Block.render) ++ back' ∧
        objects[0]? = some { keyword := "type", name := "Animal", lines } ∧
        objects'[0]? = some { keyword := "type", name := "Animal", lines } := by
  obtain ⟨m, fields, hm, henums, hdeclared, hlength, hbound, hunbound⟩ := friendsAndKeeper_read
  obtain ⟨objects, objects', back, back', hsdl, hsdl', -, -, hblocks⟩ := declared_alike hm defaultLambda []
  obtain ⟨lines, hlines, hblock, hblock'⟩ := hblocks 0 _ fields (by rw [hdeclared]; rfl) (by decide) (by decide)
  refine ⟨m, hm, hbound, hunbound, fields, lines, objects, objects', back, back', hlength, hlines, ?_, ?_, hblock,
    hblock'⟩
  · rw [hsdl, henums, List.map_nil, List.nil_append]
  · rw [hsdl', henums, List.map_nil, List.nil_append]

end Manifest

end ApiManifest
