import ApiManifest.Proofs.Manifest.Decoding
import ApiManifest.Proofs.Schema.Derivation
import ApiManifest.Proofs.Text.Utf8

/-!
# Key fields as arguments and as entries

A signature prints the keys of a resolver as arguments, and a template reads them as the entries of a map. Both have
the same names in the same order. The types are found in two ways: of a key field that a resolver serves, the entry has
the type that this resolver returns and the argument has the default one.
-/

namespace ApiManifest

/-! ## Key fields of bound resolvers -/

theorem ResolverOf.bind_keyFields (r : Resolver) (s : Site) : (s.bind r).1.keyFields = r.keyFields := by
  rcases r.bind_cases s with ⟨b, h, _⟩ | ⟨e, h⟩ <;> rw [h]

theorem Manifest.keyFields_sound {bytes : List UInt8} {m : Manifest} (h : parse bytes = .ok m)
    {x : Location × Resolver} (hx : x ∈ m.resolve.resolvers) : ∀ f ∈ x.2.keyFields, f.Sound := by
  obtain ⟨⟨_, hdecode⟩, _⟩ := of_parse_eq_ok h
  obtain ⟨d, hd, rfl⟩ := exists_declaration hx
  rw [ResolverOf.bind_keyFields]
  exact ((decode_sound hdecode).declared hd).keyFields

/-! ## The two ways to find a type -/

namespace Field

/-- The resolver of the field returns a type of another name than the default. -/
def ReturnsOther (f : Field) (t : FieldType) : Prop :=
  f.resolver.bind (·.type) = some t ∧ t.name ≠ FieldType.defaultName

variable {f : Field}

theorem typeName_eq_iff (hf : f.Sound) : (f.type.getD default).name = f.typeName ↔ ∀ t, ¬ f.ReturnsOther t := by
  cases hf with
  | typed hname ht hinput => exact ⟨fun _ _ h => (nomatch h.1), fun _ => rfl⟩
  | @resolved name q inputType hname hq hinput =>
      cases htype : q.type with
      | none => simp [typeName, ReturnsOther, htype, default]
      | some t => simp [typeName, ReturnsOther, htype, default, eq_comm]

theorem ReturnsOther.typeName {t : FieldType} (hf : f.Sound) (h : f.ReturnsOther t) :
    f.type = none ∧ f.typeName = t.name := by
  cases hf with
  | typed hname ht hinput => exact nomatch h.1
  | @resolved name q inputType hname hq hinput =>
      have htype : q.type = some t := h.1
      exact ⟨rfl, by simp [Field.typeName, htype]⟩

end Field

/-! ## Arguments and entries -/

namespace ResolverOf

/-- The arguments that a signature prints for the keys of a resolver. -/
def keyArguments (r : Resolver) : List (String × FieldType) :=
  r.keyFields.map fun f => (f.name, f.type.getD default)

/-- What the map of the keys is made of, before entries of one name come together. -/
def keyEntries (r : Resolver) : List (String × String) :=
  r.keyFields.map fun f => (f.name, f.typeName)

def writeArguments (arguments : List (String × FieldType)) : String :=
  if arguments.isEmpty then ""
  else "(" ++ ", ".intercalate (arguments.map fun a => a.1 ++ ": " ++ a.2.shorthand) ++ ")"

def writeEntries (entries : List (String × String)) : Json :=
  .object ((Dict.ofList entries).map fun e => (e.1, .string e.2))

theorem keyFieldMap_eq (r : Resolver) : r.keyFieldMap = writeEntries r.keyEntries :=
  rfl

theorem argumentList_eq {r : Resolver} {b : Binding} (hb : r.binding = some b)
    (ha : b.action = .get ∨ b.action = .delete ∨ b.action = .custom) :
    r.argumentList = writeArguments r.keyArguments := by
  have hkeys : r.argumentList = if r.keyFields.isEmpty then ""
      else "(" ++ ", ".intercalate
        (r.keyFields.map fun f => f.name ++ ": " ++ (f.type.getD default).shorthand) ++ ")" := by
    rcases ha with ha | ha | ha <;> simp only [argumentList, hb, ha]
  simp only [hkeys, writeArguments, keyArguments, List.isEmpty_map, List.map_map, Function.comp_def]

end ResolverOf

/-- Key by key, the arguments of a resolver and the entries of its map have the same names. A type has the same name
in both just if no resolver of the key field itself returns another than the default; where one does, the entry has
that type and the argument the default one. -/
theorem Manifest.keyArguments_agree_iff {bytes : List UInt8} {m : Manifest} (h : parse bytes = .ok m) {l : Location}
    {r : Resolver} (hr : (l, r) ∈ m.resolve.resolvers) {b : Binding} (hb : r.binding = some b)
    (ha : b.action = .get ∨ b.action = .delete ∨ b.action = .custom) :
    r.argumentList = ResolverOf.writeArguments r.keyArguments ∧ r.keyFieldMap = ResolverOf.writeEntries r.keyEntries ∧
      r.keyArguments.length = r.keyFields.length ∧ r.keyEntries.length = r.keyFields.length ∧
      ∀ (i : Nat) (f : Field), r.keyFields[i]? = some f → ∃ t, r.keyArguments[i]? = some (f.name, t) ∧
        r.keyEntries[i]? = some (f.name, f.typeName) ∧ (t.name = f.typeName ↔ ∀ u, ¬ f.ReturnsOther u) ∧
        ∀ u, f.ReturnsOther u → t = default ∧ f.typeName = u.name := by
  refine ⟨ResolverOf.argumentList_eq hb ha, r.keyFieldMap_eq, List.length_map _, List.length_map _, ?_⟩
  intro i f hf
  have hsound := keyFields_sound h hr f (List.mem_of_getElem? hf)
  refine ⟨f.type.getD default, ?_, ?_, Field.typeName_eq_iff hsound, ?_⟩
  · rw [ResolverOf.keyArguments, List.getElem?_map, hf]
    rfl
  · rw [ResolverOf.keyEntries, List.getElem?_map, hf]
    rfl
  · intro u hu
    obtain ⟨htype, hname⟩ := hu.typeName hsound
    exact ⟨by rw [htype]; rfl, hname⟩

def ownedAnimal : String :=
  "version: v2\napiNameSuffix: zoo\nqueries:\n  - name: animal\n    type: Animal\n    resolver:\n      action: get\n" ++
    "      keyFields:\n        - id:ID!\n        - name: owner\n          resolver:\n            action: get\n" ++
    "            type: ID\nsources:\n  default:\n    lambda: \x7b\x7d\n"

theorem ownedAnimal_read :
    ∃ m l r b, Manifest.parse (Text.Utf8.encode ownedAnimal) = .ok m ∧ (l, r) ∈ m.resolve.resolvers ∧
      r.binding = some b ∧ b.action = .get ∧ r.argumentList = "(id: ID!, owner: String)" ∧
      r.keyArguments = [("id", { name := "ID", nonNullable := true }), ("owner", default)] ∧
      r.keyEntries = [("id", "ID"), ("owner", "ID")] := by
  have check : (Manifest.parse (Text.Utf8.encode ownedAnimal)).toOption.map (fun m => decide (
      ∃ x ∈ m.resolve.resolvers, x.2.binding.map (·.action) = some .get ∧
        x.2.argumentList = "(id: ID!, owner: String)" ∧
        x.2.keyArguments = [("id", { name := "ID", nonNullable := true }), ("owner", default)] ∧
        x.2.keyEntries = [("id", "ID"), ("owner", "ID")])) = some true := by
    rw [Text.Utf8.encode_eq_data]
    decide +kernel
  obtain ⟨m, hm, hdecided⟩ := toOption_map_eq_some.mp check
  obtain ⟨⟨l, r⟩, hr, hbound, hread⟩ := of_decide_eq_true hdecided
  obtain ⟨b, hb, ha⟩ := Option.map_eq_some_iff.mp hbound
  exact ⟨m, l, r, b, hm, hr, hb, ha, hread⟩

theorem ownedAnimal_returns :
    ∃ m l r b, Manifest.parse (Text.Utf8.encode ownedAnimal) = .ok m ∧ (l, r) ∈ m.resolve.resolvers ∧
      r.binding = some b ∧ b.action = .get ∧ ∃ f g, r.keyFields[0]? = some f ∧ r.keyFields[1]? = some g ∧
        (∀ u, ¬ f.ReturnsOther u) ∧ ∃ u, g.ReturnsOther u := by
  obtain ⟨m, l, r, b, hm, hr, hb, ha, _, harguments, hentries⟩ := ownedAnimal_read
  obtain ⟨_, _, hlength, _, hkeys⟩ := Manifest.keyArguments_agree_iff hm hr hb (.inl ha)
  rw [harguments] at hlength
  have htwo : r.keyFields.length = 2 := hlength.symm
  have hf : r.keyFields[0]? = some r.keyFields[0] := List.getElem?_eq_getElem _
  have hg : r.keyFields[1]? = some r.keyFields[1] := List.getElem?_eq_getElem _
  refine ⟨m, l, r, b, hm, hr, hb, ha, _, _, hf, hg, ?_, ?_⟩
  · obtain ⟨t, ht, he, hagree, _⟩ := hkeys 0 _ hf
    rw [harguments] at ht
    rw [hentries] at he
    obtain ⟨_, rfl⟩ := Prod.mk.inj (Option.some.inj ht)
    obtain ⟨_, hentry⟩ := Prod.mk.inj (Option.some.inj he)
    exact hagree.mp hentry
  · obtain ⟨t, ht, he, hagree, _⟩ := hkeys 1 _ hg
    rw [harguments] at ht
    rw [hentries] at he
    obtain ⟨_, rfl⟩ := Prod.mk.inj (Option.some.inj ht)
    obtain ⟨_, hentry⟩ := Prod.mk.inj (Option.some.inj he)
    by_contra hnone
    have hsame : "String" = "ID" := (hagree.mpr (not_exists.mp hnone)).trans hentry.symm
    exact absurd hsame (by decide)

/-- The second key is an identifier, and as an argument it is a string. -/
theorem ownedAnimal_disagrees :
    ∃ m, Manifest.parse (Text.Utf8.encode ownedAnimal) = .ok m ∧ ∃ x ∈ m.resolve.resolvers, ∃ b,
      x.2.binding = some b ∧ b.action = .get ∧ x.2.argumentList = "(id: ID!, owner: String)" ∧
      x.2.keyEntries = [("id", "ID"), ("owner", "ID")] := by
  obtain ⟨m, l, r, b, hm, hr, hb, ha, hlist, _, hentries⟩ := ownedAnimal_read
  exact ⟨m, hm, (l, r), hr, b, hb, ha, hlist, hentries⟩

end ApiManifest
