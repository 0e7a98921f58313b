import ApiManifest.Manifest.Load
import ApiManifest.Proofs.Manifest.Fields
import ApiManifest.Proofs.Schema.Discovery
import ApiManifest.Proofs.Schema.Locations

/-!
# What decoding makes sure of

The fields and resolvers of a manifest are sound at every depth, and no dictionary of it has a name twice.
-/

namespace ApiManifest

open Yaml (Node)

/-! ## Records, lists and dictionaries -/

/-- Reading the members of a record keeps what setting any of them keeps. -/
theorem Members.read_induction {μ σ : Type} [Members μ] [DecidableEq μ] {P : σ → Prop} {r : Reading}
    {set : μ → Node → σ → Except DecodeError σ} (hset : ∀ m n s s', set m n s = .ok s' → P s → P s')
    {entries : List (Node × Node)} {seen seen' : List μ} {record record' : σ}
    (h : Members.read r set entries seen record = .ok (seen', record')) (hp : P record) : P record' := by
  induction entries generalizing seen record with
  | nil =>
      rw [Members.read] at h
      cases h
      exact hp
  | cons e entries ih =>
      obtain ⟨key, value⟩ := e
      simp only [Members.read, bind_eq_ok] at h
      obtain ⟨m, _, seen₁, _, record₁, hm, h⟩ := h
      exact ih h (hset m value record record₁ hm hp)

theorem exists_of_mem_decodeList {α : Type} {r : Reading} {read : Node → Except DecodeError α} {n : Node}
    {xs : List α} (h : decodeList r read n = .ok xs) {x : α} (hx : x ∈ xs) : ∃ n', read n' = .ok x := by
  obtain ⟨items, _, hitems⟩ := bind_eq_ok.mp h
  obtain ⟨n', _, hn'⟩ := exists_of_mem_mapM hitems hx
  exact ⟨n', hn'⟩

theorem decodeDict_nodup {α : Type} {r : Reading} {read : Node → Except DecodeError α} {n : Node}
    {d : Dict α} (h : decodeDict r read n = .ok d) : d.names.Nodup := by
  simp only [decodeDict, bind_eq_ok, pure_eq_ok] at h
  obtain ⟨_, _, entries, _, rfl⟩ := h
  exact Dict.nodup_names_ofList entries

theorem exists_of_mem_decodeDict {α : Type} {r : Reading} {read : Node → Except DecodeError α} {n : Node}
    {d : Dict α} (h : decodeDict r read n = .ok d) {e : String × α} (he : e ∈ d) : ∃ n', read n' = .ok e.2 := by
  simp only [decodeDict, bind_eq_ok, pure_eq_ok] at h
  obtain ⟨_, _, entries, hentries, rfl⟩ := h
  obtain ⟨⟨key, value⟩, _, hread⟩ := exists_of_mem_mapM hentries (Dict.mem_of_mem_ofList he)
  simp only [bind_eq_ok, pure_eq_ok] at hread
  obtain ⟨_, _, v, hv, rfl⟩ := hread
  exact ⟨value, hv⟩

/-! ## Operations -/

structure Operation.Sound (o : Operation) : Prop where
  type : o.type.Named
  resolver : ∀ q ∈ o.resolver, q.Sound

theorem Operation.decode_sound {r : Reading} {n : Node} {o : Operation} (h : Operation.decode r n = .ok o) :
    o.Sound := by
  simp only [Operation.decode, bind_eq_ok, pure_eq_ok] at h
  obtain ⟨_, _, ⟨seen, o'⟩, hread, _, _, rfl⟩ := h
  refine Members.read_induction (P := Sound) ?_ hread ⟨FieldType.default_named, by simp⟩
  intro m n o₁ o₂ hset ho
  cases m <;> simp only [setMember, bind_eq_ok, pure_eq_ok] at hset <;> obtain ⟨a, ha, rfl⟩ := hset
  case name => exact { ho with }
  case type => exact { ho with type := FieldType.decode_named ha }
  case resolver =>
      refine { ho with resolver := ?_ }
      intro q hq
      exact ApiManifest.decode_sound n (of_readOption_eq_ok ha q hq)

/-! ## Manifests -/

namespace Manifest

/-- What decoding makes sure of, at every depth. -/
structure Sound (m : Manifest) : Prop where
  queries : ∀ o ∈ m.queries, o.Sound
  mutations : ∀ o ∈ m.mutations, o.Sound
  fields : ∀ e ∈ m.objects, ∀ f ∈ e.2, f.Sound
  enumNames : m.enums.names.Nodup
  objectNames : m.objects.names.Nodup
  sourceNames : m.sources.names.Nodup

theorem setMember_sound {r : Reading} (member : ManifestMember) (n : Node) (m m' : Manifest)
    (h : setMember r member n m = .ok m') (hm : m.Sound) : m'.Sound := by
  cases member <;> simp only [setMember, bind_eq_ok, pure_eq_ok] at h <;> obtain ⟨read, hread, rfl⟩ := h
  case version | apiNameSuffix => exact { hm with }
  case enums => exact { hm with enumNames := decodeDict_nodup hread }
  case objects =>
      refine { hm with fields := ?_, objectNames := decodeDict_nodup hread }
      intro e he f hf
      obtain ⟨n', hfields⟩ := exists_of_mem_decodeDict hread he
      obtain ⟨n'', hfield⟩ := exists_of_mem_decodeList hfields hf
      exact Field.decode_sound hfield
  case queries =>
      refine { hm with queries := ?_ }
      intro o ho
      obtain ⟨n', hn'⟩ := exists_of_mem_decodeList hread ho
      exact Operation.decode_sound hn'
  case mutations =>
      refine { hm with mutations := ?_ }
      intro o ho
      obtain ⟨n', hn'⟩ := exists_of_mem_decodeList hread ho
      exact Operation.decode_sound hn'
  case sources => exact { hm with sourceNames := decodeDict_nodup hread }

theorem decode_sound {r : Reading} {n : Node} {m : Manifest} (h : decode r n = .ok m) : m.Sound := by
  simp only [decode, bind_eq_ok, pure_eq_ok] at h
  obtain ⟨_, _, ⟨seen, m'⟩, hread, _, _, rfl⟩ := h
  refine Members.read_induction setMember_sound hread ?_
  constructor <;> simp [Dict.names]

/-- What decoding makes sure of in the parts that are bound. -/
structure WellRead (m : Manifest) : Prop where
  queries : ∀ o ∈ m.queries, ∀ q ∈ o.resolver, q.Fresh
  mutations : ∀ o ∈ m.mutations, ∀ q ∈ o.resolver, q.Fresh
  fields : ∀ e ∈ m.objects, ∀ f ∈ e.2, ∀ q ∈ f.resolver, q.Fresh
  enumNames : m.enums.names.Nodup
  objectNames : m.objects.names.Nodup
  sourceNames : m.sources.names.Nodup

theorem Sound.wellRead {m : Manifest} (hm : m.Sound) : m.WellRead :=
  { hm with
    queries := fun o ho q hq => ((hm.queries o ho).resolver q hq).fresh
    mutations := fun o ho q hq => ((hm.mutations o ho).resolver q hq).fresh
    fields := fun e he f hf q hq => ((hm.fields e he f hf).resolver q hq).fresh }

theorem of_checked_eq_ok {m m' : Manifest} (h : m.checked = .ok m') :
    m' = m ∧ ¬ Text.Blank m.apiNameSuffix.toList ∧ m.sourceFaults = [] := by
  unfold checked at h
  split at h
  · cases h
  · rename_i hname
    split at h
    · rename_i hfaults
      cases h
      exact ⟨rfl, fun hb => hname (Text.isEmpty_trim_iff.mpr hb), List.isEmpty_iff.mp hfaults⟩
    · cases h

theorem decodeStream_eq_ok {α : Type} {decode : Node → Except DecodeError α} {stream : Yaml.Stream} {a : α} :
    decodeStream decode stream = .ok a ↔ decode stream.document = .ok a ∧ stream.continues = false := by
  simp only [decodeStream, bind_eq_ok]
  constructor
  · rintro ⟨a', hdecode, h⟩
    split at h
    · cases h
    · rename_i hend
      cases h
      exact ⟨hdecode, Bool.eq_false_iff.mpr hend⟩
  · rintro ⟨hdecode, hend⟩
    exact ⟨a, hdecode, by rw [hend]; rfl⟩

/-- A manifest that is accepted has been decoded, it has a name, and nothing is wrong with its data sources. -/
theorem of_parse_eq_ok {bytes : List UInt8} {m : Manifest} (h : parse bytes = .ok m) :
    (∃ n, decode .text n = .ok m) ∧ ¬ Text.Blank m.apiNameSuffix.toList ∧ ∀ e ∈ m.sources, e.2.fault? = none := by
  simp only [parse, bind_eq_ok, mapError_eq_ok, decodeStream_eq_ok] at h
  obtain ⟨_, _, m', ⟨hdecode, _⟩, hchecked⟩ := h
  obtain ⟨rfl, hname, hfaults⟩ := of_checked_eq_ok hchecked
  refine ⟨⟨_, hdecode⟩, hname, fun e he => ?_⟩
  exact Option.map_eq_none_iff.mp (List.filterMap_eq_nil_iff.mp hfaults e he)

theorem parse_wellRead {bytes : List UInt8} {m : Manifest} (h : parse bytes = .ok m) : m.WellRead := by
  obtain ⟨⟨n, hdecode⟩, _⟩ := of_parse_eq_ok h
  exact (decode_sound hdecode).wellRead

theorem kind?_of_parse {bytes : List UInt8} {m : Manifest} (h : parse bytes = .ok m) {e : String × DataSource}
    (he : e ∈ m.sources) : e.2.kind? ≠ none := by
  intro hk
  have hv : e.2.variant? = none := Option.map_eq_none_iff.mp hk
  have hfault := (of_parse_eq_ok h).2.2 e he
  simp [DataSource.fault?, hv] at hfault

theorem declared_cases {m : Manifest} {d : Declaration} (hd : d ∈ (Schema.ofManifest m).declarations) :
    (∃ o ∈ m.queries, o.resolver = some d.resolver) ∨ (∃ o ∈ m.mutations, o.resolver = some d.resolver) ∨
      ∃ e ∈ m.objects, ∃ f ∈ e.2, f.resolver = some d.resolver := by
  have hr : (d.location, d.resolver) ∈ (Schema.ofManifest m).resolvers := by
    rw [Schema.resolvers_eq]
    exact List.mem_map.mpr ⟨d, hd, rfl⟩
  rcases Schema.mem_resolvers.mp hr with ⟨_, o, ho, hor, _⟩ | ⟨_, o, ho, hor, _⟩ | ⟨e, he, _, f, hf, hfr, _⟩
  · exact .inl ⟨o, List.mem_of_getElem? ho, hor⟩
  · exact .inr (.inl ⟨o, List.mem_of_getElem? ho, hor⟩)
  · obtain ⟨e', he', rfl⟩ := List.mem_map.mp he
    exact .inr (.inr ⟨e', he', f, List.mem_of_getElem? hf, hfr⟩)

theorem WellRead.fresh {m : Manifest} (hm : m.WellRead) : (Schema.ofManifest m).Fresh := by
  intro d hd
  rcases declared_cases hd with ⟨o, ho, hq⟩ | ⟨o, ho, hq⟩ | ⟨e, he, f, hf, hq⟩
  · exact hm.queries o ho _ hq
  · exact hm.mutations o ho _ hq
  · exact hm.fields e he f hf _ hq

theorem Sound.declared {m : Manifest} (hm : m.Sound) {d : Declaration} (hd : d ∈ (Schema.ofManifest m).declarations) :
    d.resolver.Sound := by
  rcases declared_cases hd with ⟨o, ho, hq⟩ | ⟨o, ho, hq⟩ | ⟨e, he, f, hf, hq⟩
  · exact (hm.queries o ho).resolver _ hq
  · exact (hm.mutations o ho).resolver _ hq
  · exact (hm.fields e he f hf).resolver _ hq

end Manifest

end ApiManifest
