import ApiManifest.Proofs.Manifest.Decoding

/-!
# Accepted manifests are well formed

The fields, resolvers and types of a manifest, however deep they lie below one another, and what holds of each
of them in a manifest that is accepted.
-/

namespace ApiManifest

/-! ## The parts of a manifest -/

namespace Manifest

mutual

/-- The fields of a manifest: those of its objects, and the key fields of its resolvers. -/
inductive HasField (m : Manifest) : Field → Prop where
  | object {name : String} {fields : List Field} {f : Field} (he : (name, fields) ∈ m.objects) (hf : f ∈ fields) :
      HasField m f
  | key {q : Resolver} {f : Field} (hq : HasResolver m q) (hf : f ∈ q.keyFields) : HasField m f

inductive HasResolver (m : Manifest) : Resolver → Prop where
  | query {o : Operation} {q : Resolver} (ho : o ∈ m.queries) (hq : o.resolver = some q) : HasResolver m q
  | mutation {o : Operation} {q : Resolver} (ho : o ∈ m.mutations) (hq : o.resolver = some q) : HasResolver m q
  | field {f : Field} {q : Resolver} (hf : HasField m f) (hq : f.resolver = some q) : HasResolver m q

end

inductive HasType (m : Manifest) : FieldType → Prop where
  | query {o : Operation} (ho : o ∈ m.queries) : HasType m o.type
  | mutation {o : Operation} (ho : o ∈ m.mutations) : HasType m o.type
  | field {f : Field} {t : FieldType} (hf : m.HasField f) (ht : f.type = some t) : HasType m t
  | input {f : Field} {t : FieldType} (hf : m.HasField f) (ht : f.inputType = some t) : HasType m t
  | resolver {q : Resolver} {t : FieldType} (hq : m.HasResolver q) (ht : q.type = some t) : HasType m t

/-- What the schema and its documents rely on, at every depth. -/
structure WellFormed (m : Manifest) : Prop where
  fieldNames : ∀ f, m.HasField f → f.name ≠ ""
  fieldKinds : ∀ f, m.HasField f → f.type.isSome = !f.resolver.isSome
  typeNames : ∀ t, m.HasType t → Text.IsName t.name.toList
  unbound : ∀ q, m.HasResolver q → q.binding = none ∧ q.stage = .declared
  variants : ∀ e ∈ m.sources, e.2.variantCount = 1
  hashKeys : ∀ e ∈ m.sources, ∀ d ∈ e.2.dynamo, ∃ k, d.hashAttribute? = some k ∧ k.name ≠ ""
  primaryKeys : ∀ e ∈ m.sources, ∀ q ∈ e.2.sql, ¬ Text.Blank q.primaryKey.toList
  apiName : ¬ Text.Blank m.apiNameSuffix.toList

/-! ## At every depth -/

variable {m : Manifest}

mutual
theorem Sound.field (hm : m.Sound) {f : Field} : m.HasField f → f.Sound
  | .object he hf => hm.fields _ he f hf
  | .key hq hf => (hm.resolver hq).keyFields f hf

theorem Sound.resolver (hm : m.Sound) {q : Resolver} : m.HasResolver q → q.Sound
  | .query ho hq => (hm.queries _ ho).resolver q hq
  | .mutation ho hq => (hm.mutations _ ho).resolver q hq
  | .field hf hq => (hm.field hf).resolver q hq
end

theorem Sound.typeNamed (hm : m.Sound) {t : FieldType} (h : m.HasType t) : t.Named := by
  cases h with
  | query ho => exact (hm.queries _ ho).type
  | mutation ho => exact (hm.mutations _ ho).type
  | field hf ht => exact (hm.field hf).type t ht
  | input hf ht => exact (hm.field hf).inputType t ht
  | resolver hq ht => exact (hm.resolver hq).type t ht

end Manifest

/-! ## Data sources -/

theorem KeyAttribute.name_ne_of_parse? {s : String} {k : KeyAttribute} (h : parse? s = some k) : k.name ≠ "" := by
  unfold parse? at h
  dsimp only at h
  split at h
  · cases h
  · rename_i hname
    cases h
    exact hname

namespace DataSource

variable {s : DataSource}

theorem variant?_of_fault? (h : s.fault? = none) : ∃ v, s.variant? = some v := by
  unfold fault? at h
  split at h
  · cases h
  all_goals exact ⟨_, by assumption⟩

theorem variantCount_eq_one {v : SourceVariant} (h : s.variant? = some v) : s.variantCount = 1 := by
  obtain ⟨dynamo, sql, lambda⟩ := s
  cases dynamo <;> cases sql <;> cases lambda
  all_goals cases h <;> rfl

theorem variant?_of_dynamo {v : SourceVariant} {d : DynamoSource} (h : s.variant? = some v) (hd : s.dynamo = some d) :
    s.variant? = some (.dynamo d) := by
  obtain ⟨dynamo, sql, lambda⟩ := s
  cases hd
  cases sql <;> cases lambda
  all_goals cases h <;> rfl

theorem variant?_of_sql {v : SourceVariant} {q : SqlSource} (h : s.variant? = some v) (hq : s.sql = some q) :
    s.variant? = some (.sql q) := by
  obtain ⟨dynamo, sql, lambda⟩ := s
  cases hq
  cases dynamo <;> cases lambda
  all_goals cases h <;> rfl

theorem hashAttribute?_of_fault? {d : DynamoSource} (h : s.fault? = none) (hd : s.variant? = some (.dynamo d)) :
    ∃ k, d.hashAttribute? = some k ∧ k.name ≠ "" := by
  simp only [fault?, hd] at h
  cases hk : d.hashAttribute? with
  | none => simp [hk] at h
  | some k => exact ⟨k, rfl, KeyAttribute.name_ne_of_parse? hk⟩

theorem primaryKey_of_fault? {q : SqlSource} (h : s.fault? = none) (hq : s.variant? = some (.sql q)) :
    ¬ Text.Blank q.primaryKey.toList := by
  simp only [fault?, hq] at h
  intro hblank
  simp [Text.trim_eq_nil_iff.mpr hblank] at h

end DataSource

/-! ## Accepted manifests -/

namespace Manifest

variable {m : Manifest}

theorem parse_wellFormed {bytes : List UInt8} (h : parse bytes = .ok m) : m.WellFormed := by
  obtain ⟨⟨n, hdecode⟩, hname, hfault⟩ := of_parse_eq_ok h
  have hm := decode_sound hdecode
  constructor
  case fieldNames => exact fun f hf => (hm.field hf).name
  case fieldKinds => exact fun f hf => (hm.field hf).kind
  case typeNames => exact fun t ht => hm.typeNamed ht
  case unbound => exact fun q hq => (hm.resolver hq).fresh
  case variants =>
    intro e he
    obtain ⟨v, hv⟩ := DataSource.variant?_of_fault? (hfault e he)
    exact DataSource.variantCount_eq_one hv
  case hashKeys =>
    intro e he d hd
    obtain ⟨v, hv⟩ := DataSource.variant?_of_fault? (hfault e he)
    exact DataSource.hashAttribute?_of_fault? (hfault e he) (DataSource.variant?_of_dynamo hv hd)
  case primaryKeys =>
    intro e he q hq
    obtain ⟨v, hv⟩ := DataSource.variant?_of_fault? (hfault e he)
    exact DataSource.primaryKey_of_fault? (hfault e he) (DataSource.variant?_of_sql hv hq)
  case apiName => exact hname

def keyedByResolver : String :=
  "version: v2\napiNameSuffix: zoo\nqueries:\n- name: pet\n  resolver:\n    action: get\n    keyFields:\n" ++
    "    - name: owner\n      resolver:\n        action: get\n        keyFields: [id]\n" ++
    "sources:\n  default:\n    dynamo:\n      hashKey: id\n"

theorem keyedByResolver_keys :
    (parse (Text.Utf8.encode keyedByResolver)).toOption.map
        (fun m => ((m.queries.filterMap (·.resolver)).flatMap (·.keyFields)).map (·.name)) =
      some ["owner"] := by
  decide +kernel

theorem keyedByResolver_wellFormed :
    ∃ m, parse (Text.Utf8.encode keyedByResolver) = .ok m ∧
      ((m.queries.filterMap (·.resolver)).flatMap (·.keyFields)).map (·.name) = ["owner"] ∧ m.WellFormed := by
  obtain ⟨m, hm, hkeys⟩ := toOption_map_eq_some.mp keyedByResolver_keys
  exact ⟨m, hm, hkeys, parse_wellFormed hm⟩

end Manifest

end ApiManifest
