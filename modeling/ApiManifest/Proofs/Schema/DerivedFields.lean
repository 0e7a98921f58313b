import ApiManifest.Proofs.Lists
import ApiManifest.Proofs.Manifest.Decoding
import ApiManifest.Proofs.Schema.References
import ApiManifest.Proofs.Text.Utf8

/-!
# Fields of derived objects

The filter of an object takes the scalar fields, each with operators that every document defines, and what it leaves
out for its type is told apart from what a resolver serves. The input of an update takes all typed fields, and that of
an insertion the same ones but for the identifier that the store makes up.
-/

namespace ApiManifest

/-! ## Classes of fields -/

/-- How a field takes part in the filter of its object: by the operators of its scalar; not at all, its type being
none; or not at all, a resolver serving it. -/
inductive FilterClass where
  | scalar
  | other
  | served
  deriving DecidableEq, Repr

namespace Field

inductive FallsIn (f : Field) : FilterClass → Prop where
  | scalar {t : FieldType} (ht : f.type = some t) (hs : t.name ∈ awsScalars ++ coreScalars) : FallsIn f .scalar
  | other {t : FieldType} (ht : f.type = some t) (hs : t.name ∉ awsScalars ++ coreScalars) : FallsIn f .other
  | served {q : Resolver} (ht : f.type = none) (hq : f.resolver = some q) : FallsIn f .served

variable {f : Field}

theorem fallsIn_scalar : f.FallsIn .scalar ↔ ∃ t ∈ f.type, t.name ∈ awsScalars ++ coreScalars := by
  constructor
  · intro h
    cases h with
    | scalar ht hs => exact ⟨_, ht, hs⟩
  · rintro ⟨t, ht, hs⟩
    exact .scalar ht hs

theorem fallsIn_other : f.FallsIn .other ↔ ∃ t ∈ f.type, t.name ∉ awsScalars ++ coreScalars := by
  constructor
  · intro h
    cases h with
    | other ht hs => exact ⟨_, ht, hs⟩
  · rintro ⟨t, ht, hs⟩
    exact .other ht hs

theorem fallsIn_served : f.FallsIn .served ↔ f.type = none ∧ f.resolver.isSome := by
  constructor
  · intro h
    cases h with
    | served ht hq => exact ⟨ht, by rw [hq]; rfl⟩
  · rintro ⟨ht, hq⟩
    obtain ⟨q, hq⟩ := Option.isSome_iff_exists.mp hq
    exact .served ht hq

instance : (c : FilterClass) → Decidable (f.FallsIn c)
  | .scalar => decidable_of_iff _ fallsIn_scalar.symm
  | .other => decidable_of_iff _ fallsIn_other.symm
  | .served => decidable_of_iff _ fallsIn_served.symm

theorem FallsIn.unique {c c' : FilterClass} (h : f.FallsIn c) (h' : f.FallsIn c') : c = c' := by
  cases h with
  | scalar ht hs =>
      cases h' with
      | scalar => rfl
      | other ht' hs' =>
          cases ht.symm.trans ht'
          exact absurd hs hs'
      | served ht' _ => cases ht.symm.trans ht'
  | other ht hs =>
      cases h' with
      | scalar ht' hs' =>
          cases ht.symm.trans ht'
          exact absurd hs' hs
      | other => rfl
      | served ht' _ => cases ht.symm.trans ht'
  | served ht _ =>
      cases h' with
      | scalar ht' _ | other ht' _ => cases ht.symm.trans ht'
      | served => rfl

theorem existsUnique_fallsIn : (∃! c, f.FallsIn c) ↔ f.type ≠ none ∨ f.resolver ≠ none := by
  constructor
  · rintro ⟨c, h, -⟩
    cases h with
    | scalar ht _ | other ht _ => exact .inl (by simp [ht])
    | served _ hq => exact .inr (by simp [hq])
  · intro h
    have hfalls : ∃ c, f.FallsIn c := by
      cases ht : f.type with
      | some t =>
          by_cases hs : t.name ∈ awsScalars ++ coreScalars
          · exact ⟨_, .scalar ht hs⟩
          · exact ⟨_, .other ht hs⟩
      | none =>
          obtain ⟨q, hq⟩ := Option.ne_none_iff_exists'.mp (h.resolve_left (· ht))
          exact ⟨_, .served ht hq⟩
    obtain ⟨c, hc⟩ := hfalls
    exact ⟨c, hc, fun c' hc' => hc'.unique hc⟩

theorem existsUnique_fallsIn_bind (sources : Dict DataSource) (parent : String) :
    (∃! c, (f.bind sources parent).1.FallsIn c) ↔ ∃! c, f.FallsIn c := by
  simp only [existsUnique_fallsIn, bind_fst, ne_eq, Option.map_eq_none_iff]

end Field

/-! ## Filters -/

namespace ScalarClass

variable {name : String}

theorem ofType_eq_aws : ofType name = .aws ↔ name ∈ awsScalars := by
  simp only [ofType, List.contains_eq_mem]
  by_cases ha : name ∈ awsScalars <;> by_cases hc : name ∈ coreScalars <;> simp [ha, hc]

theorem ofType_eq_core : ofType name = .core ↔ name ∈ coreScalars := by
  -- no scalar is both an extended and a core one
  have hdisjoint : ∀ scalar ∈ coreScalars, scalar ∉ awsScalars := by decide
  simp only [ofType, List.contains_eq_mem]
  by_cases hc : name ∈ coreScalars
  · simp [hc, hdisjoint name hc]
  · by_cases ha : name ∈ awsScalars <;> simp [ha, hc]

end ScalarClass

/-- What a scalar field becomes in a filter: a nullable field of the same name that is no list, with the operators of
its scalar; those of the extended ones are those of strings. -/
inductive Field.FilteredAs (f : Field) : Field → Prop where
  | aws {t : FieldType} (ht : f.type = some t) (hs : t.name ∈ awsScalars) :
      FilteredAs f (.typed f.name { name := "TableStringFilterInput", isList := false, nonNullable := false })
  | core {t : FieldType} (ht : f.type = some t) (hs : t.name ∈ coreScalars) :
      FilteredAs f (.typed f.name { name := "Table" ++ t.name ++ "FilterInput", isList := false, nonNullable := false })

def Field.filterField? (f : Field) : Option Field :=
  (f.type.bind (·.filterType?)).map (Field.typed f.name)

theorem Field.filteredAs_of_filterField? {f g : Field} (h : f.filterField? = some g) : f.FilteredAs g := by
  obtain ⟨u, hu, rfl⟩ := Option.map_eq_some_iff.mp h
  obtain ⟨t, ht, hu⟩ := Option.bind_eq_some_iff.mp hu
  unfold FieldType.filterType? at hu
  split at hu
  · cases hu
    exact .aws ht (ScalarClass.ofType_eq_aws.mp ‹_›)
  · cases hu
    exact .core ht (ScalarClass.ofType_eq_core.mp ‹_›)
  · cases hu

theorem Field.isSome_filterField? (f : Field) : decide (f.FallsIn .scalar) = f.filterField?.isSome := by
  cases ht : f.type with
  | none => simp [fallsIn_scalar, filterField?, ht]
  | some t =>
      have hother : ScalarClass.ofType t.name = .other ↔ t.name ∉ awsScalars ++ coreScalars := Schema.ofType_eq_other
      rw [filterField?, ht, Option.bind_some, Option.isSome_map]
      by_cases hs : t.name ∈ awsScalars ++ coreScalars
      · rw [decide_eq_true (.scalar ht hs), FieldType.filterType?]
        cases hc : ScalarClass.ofType t.name with
        | aws | core => rfl
        | other => exact absurd hs (hother.mp hc)
      · have hfalls : ¬ f.FallsIn .scalar := fun h => nomatch h.unique (.other ht hs)
        rw [decide_eq_false hfalls, FieldType.filterType?, hother.mpr hs]
        rfl

namespace Sdl

theorem exists_text {s : Schema} {block : Block} (h : block ∈ blocks s) :
    ∃ before after, s.sdl = before ++ block.render ++ after := by
  obtain ⟨front, back, hblocks⟩ := List.append_of_mem h
  refine ⟨String.join (front.map Block.render), String.join (back.map Block.render) ++
    if (roots s).isEmpty then "" else Block.text "schema" (roots s), ?_⟩
  simp only [Schema.sdl, hblocks, List.map_append, List.map_cons, String.join_append, String.join_cons,
    String.append_assoc]

theorem exists_scalarFilter : ∀ scalar ∈ coreScalars, ∃ block ∈ scalarFilters, block.keyword = "input" ∧
    block.name = "Table" ++ scalar ++ "FilterInput" := by
  decide

end Sdl

structure ObjectType.FilterExact (o : ObjectType) : Prop where
  /-- A field is of one class, if it has a type or a resolver. -/
  classes : ∀ f ∈ o.fields, (∃! c, f.FallsIn c) ↔ f.type ≠ none ∨ f.resolver ≠ none
  kept : List.Forall₂ Field.FilteredAs (o.fields.filter fun f => f.FallsIn .scalar) o.filter.fields
  dropped : o.unfilterable = o.fields.filter fun f => f.FallsIn .other
  /-- Every document holds the operators of what is kept. -/
  operators : ∀ g ∈ o.filter.fields, ∃ t ∈ g.type, ∃ block ∈ Sdl.scalarFilters, block.keyword = "input" ∧
    block.name = t.name ∧ ∀ s : Schema, ∃ before after, s.sdl = before ++ block.render ++ after

theorem ObjectType.filter_fields (o : ObjectType) : o.filter.fields = o.fields.filterMap Field.filterField? :=
  rfl

theorem ObjectType.filterExact (o : ObjectType) : o.FilterExact where
  classes _ _ := Field.existsUnique_fallsIn
  kept := by
    have hfields : List.Forall₂ (fun f g => f.filterField? = some g) (o.fields.filter fun f => f.FallsIn .scalar)
        (o.fields.filterMap Field.filterField?) := forall₂_filterMap fun f _ => f.isSome_filterField?
    exact hfields.imp fun _ _ => Field.filteredAs_of_filterField?
  dropped := by
    refine List.filter_congr fun f _ => ?_
    simp only [Schema.ofType_eq_other, Field.fallsIn_other]
    cases f.type <;> simp
  operators := by
    intro g hg
    rw [o.filter_fields] at hg
    obtain ⟨f, _, hg⟩ := List.mem_filterMap.mp hg
    have hcore : ∀ scalar ∈ coreScalars, ∃ block ∈ Sdl.scalarFilters, block.keyword = "input" ∧
        block.name = "Table" ++ scalar ++ "FilterInput" ∧
        ∀ s : Schema, ∃ before after, s.sdl = before ++ block.render ++ after := by
      intro scalar hs
      obtain ⟨block, hblock, hkeyword, hname⟩ := Sdl.exists_scalarFilter scalar hs
      refine ⟨block, hblock, hkeyword, hname, fun s => Sdl.exists_text (Sdl.mem_blocks.mpr ?_)⟩
      simp only [hblock, or_true]
    cases Field.filteredAs_of_filterField? hg with
    | aws ht hs => exact ⟨_, rfl, hcore "String" (by decide)⟩
    | core ht hs => exact ⟨_, rfl, hcore _ hs⟩

theorem Manifest.existsUnique_fallsIn {bytes : List UInt8} {m : Manifest} (h : parse bytes = .ok m)
    {e : String × ObjectType} (he : e ∈ m.resolve.objects) {f : Field} (hf : f ∈ e.2.fields) : ∃! c, f.FallsIn c := by
  obtain ⟨⟨_, hdecode⟩, _⟩ := of_parse_eq_ok h
  rw [m.resolve_objects] at he
  obtain ⟨declared, hdeclared, rfl⟩ := List.mem_map.mp he
  rw [ObjectType.bind_fst] at hf
  obtain ⟨f', hf', rfl⟩ := List.mem_map.mp hf
  have hkind := ((decode_sound hdecode).fields declared hdeclared f' hf').kind
  rw [Field.existsUnique_fallsIn_bind, Field.existsUnique_fallsIn]
  cases ht : f'.type with
  | some t => exact .inl (by simp)
  | none =>
      refine .inr fun hq => ?_
      rw [ht, hq] at hkind
      cases hkind

/-- The fields of an object are scalar ones, typed otherwise, or served by a resolver; the filter takes the first, and
the second are what it is said to drop. In the schema of a manifest there are no others. -/
theorem ObjectType.filter_partitions :
    (∀ o : ObjectType, o.FilterExact) ∧
      ∀ bytes m, Manifest.parse bytes = .ok m → ∀ e ∈ m.resolve.objects, ∀ f ∈ e.2.fields, ∃! c, f.FallsIn c :=
  ⟨filterExact, fun _ _ h _ he _ hf => Manifest.existsUnique_fallsIn h he hf⟩

def cagedAnimal : String :=
  "version: v2\napiNameSuffix: zoo\nobjects:\n  Animal:\n    - name: id\n      type: ID!\n    - name: seen\n" ++
    "      type: AWSDateTime\n    - name: home\n      type: Cage\n    - name: keeper\n      resolver:\n" ++
    "        action: get\nsources:\n  default:\n    lambda: \x7b\x7d\n"

theorem cagedAnimal_partitioned :
    ∃ m, Manifest.parse (Text.Utf8.encode cagedAnimal) = .ok m ∧ ∃ animal, ("Animal", animal) ∈ m.resolve.objects ∧
      animal.FilterExact ∧ (∀ f ∈ animal.fields, ∃! c, f.FallsIn c) ∧ animal.fields.length = 4 ∧
      animal.filter.fields.map (·.name) = ["id", "seen"] ∧ animal.unfilterable.map (·.name) = ["home"] := by
  have check : (Manifest.parse (Text.Utf8.encode cagedAnimal)).toOption.map (fun m => m.resolve.objects.map fun e =>
      (e.1, e.2.fields.length, e.2.filter.fields.map (·.name), e.2.unfilterable.map (·.name))) =
      some [("Animal", 4, ["id", "seen"], ["home"])] := by
    rw [Text.Utf8.encode_eq_data]
    decide +kernel
  obtain ⟨m, hm, hobjects⟩ := toOption_map_eq_some.mp check
  obtain ⟨⟨name, animal⟩, objects, hsplit, he, -⟩ := List.map_eq_cons_iff.mp hobjects
  simp only [Prod.mk.injEq] at he
  obtain ⟨rfl, hlength, hkept, hdropped⟩ := he
  have hmem : ("Animal", animal) ∈ m.resolve.objects := hsplit ▸ List.mem_cons_self
  exact ⟨m, hm, animal, hmem, ObjectType.filter_partitions.1 animal, ObjectType.filter_partitions.2 _ m hm _ hmem,
    hlength, hkept, hdropped⟩

/-! ## Inputs -/

namespace Field

/-- What a typed field becomes in an input: a nullable field of the same name, with the type that is given for inputs
if there is one. -/
inductive EntersAs (f : Field) : Field → Prop where
  | declared {t : FieldType} (ht : f.type = some t) (hi : f.inputType = none) :
      EntersAs f (.typed f.name { name := t.name, isList := t.isList, nonNullable := false })
  | overridden {t i : FieldType} (ht : f.type = some t) (hi : f.inputType = some i) :
      EntersAs f (.typed f.name { name := i.name, isList := i.isList, nonNullable := false })

/-- The identifier that the store makes up is told by the type that is declared, not by the one for inputs. -/
def IsGeneratedId (f : Field) : Prop :=
  f.name = "id" ∧ f.type = some { name := "ID", isList := false, nonNullable := true }

instance (f : Field) : Decidable f.IsGeneratedId :=
  inferInstanceAs (Decidable (_ ∧ _))

theorem isGeneratedId_iff {f : Field} {t : FieldType} (ht : f.type = some t) :
    isGeneratedId f.name t = true ↔ f.IsGeneratedId := by
  obtain ⟨name, isList, nonNullable⟩ := t
  cases isList <;> cases nonNullable <;> simp [isGeneratedId, IsGeneratedId, ht]

theorem entersAs_of_inputField? {f g : Field} (h : f.inputField? .update = some g) : f.EntersAs g := by
  unfold inputField? at h
  cases ht : f.type with
  | none =>
      rw [ht] at h
      cases h
  | some t =>
      rw [ht] at h
      cases hi : f.inputType with
      | none =>
          rw [hi] at h
          cases h
          exact .declared ht hi
      | some i =>
          rw [hi] at h
          cases h
          exact .overridden ht hi

theorem isSome_inputField? (f : Field) : f.type.isSome = (f.inputField? .update).isSome := by
  unfold inputField?
  cases f.type <;> rfl

theorem inputField?_insert (f : Field) :
    f.inputField? .insert = if f.IsGeneratedId then none else f.inputField? .update := by
  unfold inputField?
  cases ht : f.type with
  | none => simp
  | some t => simp [isGeneratedId_iff ht]

end Field

/-- The input of an update takes all typed fields in their order, nullable, and that of an insertion what is left of
them without the identifiers that the store makes up. There are no other inputs. -/
theorem ObjectType.input_exact (o : ObjectType) :
    let typed := o.fields.filter fun f => f.type.isSome
    ∃ updated, List.Forall₂ Field.EntersAs typed updated ∧
      o.input .update = .ok { name := "Update" ++ o.name ++ "Input", fields := updated } ∧
      o.input .insert = .ok
        { name := "Create" ++ o.name ++ "Input"
          fields := ((typed.zip updated).filter fun e => ¬ e.1.IsGeneratedId).map (·.2) } ∧
      ∀ a, a ≠ .insert → a ≠ .update → o.input a = .error (.invalidInputAction o.name a) := by
  intro typed
  have hfields : List.Forall₂ (fun f g => f.inputField? .update = some g) typed
      (o.fields.filterMap (Field.inputField? .update)) := forall₂_filterMap fun f _ => f.isSome_inputField?
  refine ⟨_, hfields.imp fun _ _ => Field.entersAs_of_inputField?, rfl, ?_, ?_⟩
  · have hinsert := filterMap_eq_zip_filter Field.isSome_inputField? Field.inputField?_insert o.fields
    simp only [input, inputName?, hinsert, typed]
  · intro a hinsert hupdate
    cases a <;> first | rfl | contradiction

/-- Of several fields named `id`, an insertion leaves out those that the store makes up, whatever type they have for
inputs, and no list of identifiers. -/
example :
    let id : FieldType := { name := "ID", nonNullable := true }
    let o : ObjectType :=
      { name := "Animal"
        fields := [.typed "id" { id with isList := true }, { name := "id", type := some id, inputType := some default },
          .typed "name" default, .typed "id" id, .typed "id" (.named "ID")] }
    (o.input .insert).toOption.map (fun i => i.fields.map fun f => (f.name, f.type)) =
      some [("id", some { name := "ID", isList := true }), ("name", some default), ("id", some (.named "ID"))] := by
  decide

end ApiManifest
