import ApiManifest.Manifest.Decode
import ApiManifest.Proofs.Except
import ApiManifest.Proofs.Schema.Binding
import ApiManifest.Proofs.Text.Blank
import ApiManifest.Proofs.Text.Identifier

/-!
# Fields and resolvers as they are read

A field may be written as a record, as a list of its members or as a shorthand, and a resolver carries fields
that carry resolvers again. Whichever way is taken, what has been read is sound at every depth: fields have a
name and either a type or a resolver, resolvers are fresh, and the names of types are identifiers.
-/

namespace ApiManifest

open Yaml (Node)

/-! ## Types -/

def FieldType.Named (t : FieldType) : Prop :=
  Text.IsName t.name.toList

namespace FieldType

variable {t : FieldType}

theorem default_named : (default : FieldType).Named :=
  Text.isIdentifier_iff.mp (by decide)

theorem parseElement_named {isList : Bool} {cs : List Char} (h : parseElement isList cs = .ok t) : t.Named := by
  unfold parseElement at h
  split at h
  split at h
  · rename_i hname
    cases h
    rw [Named, String.toList_ofList]
    exact Text.isIdentifier_iff.mp hname
  · cases h

theorem parse_named {s : String} (h : parse s = .ok t) : t.Named := by
  unfold parse at h
  split at h
  · split at h
    · exact parseElement_named h
    · cases h
  · exact parseElement_named h

theorem ofValue_named {v : Yaml.Value} (h : ofValue v = .ok t) : t.Named := by
  unfold ofValue at h
  split at h
  · cases h
    exact default_named
  · exact parse_named h
  · obtain ⟨t', ht', h⟩ := bind_eq_ok.mp h
    split at h
    · cases h
    · cases h
      exact (parse_named ht' : t'.Named)
  · cases h

theorem decode_named {n : Node} (h : decode n = .ok t) : t.Named := by
  obtain ⟨v, _, hv⟩ := bind_eq_ok.mp h
  exact ofValue_named (mapError_eq_ok.mp hv)

end FieldType

theorem Attribute.parse_sound {s : String} {a : Attribute} (h : Attribute.parse s = .ok a) :
    a.name ≠ "" ∧ a.type.Named := by
  obtain ⟨name, type, htype, h⟩ : ∃ name type, type.Named ∧
      (if (Text.trim name).isEmpty then .error .missingName
        else .ok { name := String.ofList (Text.trim name), type } : Except AttributeError Attribute) = .ok a := by
    unfold Attribute.parse at h
    split at h
    · obtain ⟨type, htype, h⟩ := bind_eq_ok.mp h
      exact ⟨_, type, FieldType.parse_named htype, h⟩
    · exact ⟨_, default, FieldType.default_named, h⟩
  split at h
  · cases h
  · rename_i hname
    cases h
    refine ⟨fun he => hname ?_, htype⟩
    rw [String.ofList_eq_empty_iff.mp he]
    rfl

/-! ## Sound fields and resolvers -/

mutual

/-- A field with a name and with a type or a resolver, sound at every depth. -/
inductive Field.Sound : Field → Prop where
  | typed {name : String} {t : FieldType} {inputType : Option FieldType} (hname : name ≠ "") (ht : t.Named)
      (hinput : ∀ t ∈ inputType, t.Named) : Field.Sound { name, type := some t, inputType }
  | resolved {name : String} {q : Resolver} {inputType : Option FieldType} (hname : name ≠ "")
      (hq : ResolverOf.Sound q) (hinput : ∀ t ∈ inputType, t.Named) :
      Field.Sound { name, resolver := some q, inputType }

/-- A resolver that nothing has bound yet, whose key fields are sound at every depth. -/
inductive ResolverOf.Sound : Resolver → Prop where
  | mk {q : Resolver} (hfresh : q.Fresh) (htype : ∀ t ∈ q.type, t.Named) (hkeys : ∀ f ∈ q.keyFields, Field.Sound f) :
      ResolverOf.Sound q

end

namespace ResolverOf.Sound

variable {q : Resolver}

theorem fresh : q.Sound → q.Fresh
  | .mk hfresh _ _ => hfresh

theorem type : q.Sound → ∀ t ∈ q.type, t.Named
  | .mk _ htype _ => htype

theorem keyFields : q.Sound → ∀ f ∈ q.keyFields, f.Sound
  | .mk _ _ hkeys => hkeys

end ResolverOf.Sound

namespace Field.Sound

variable {f : Field}

theorem name : f.Sound → f.name ≠ ""
  | .typed hname _ _ => hname
  | .resolved hname _ _ => hname

theorem kind : f.Sound → f.type.isSome = !f.resolver.isSome
  | .typed _ _ _ => rfl
  | .resolved _ _ _ => rfl

theorem type (h : f.Sound) : ∀ t ∈ f.type, t.Named := by
  cases h with
  | typed hname ht hinput =>
      intro t' ht'
      cases ht'
      exact ht
  | resolved hname hq hinput => exact fun _ ht => nomatch ht

theorem inputType : f.Sound → ∀ t ∈ f.inputType, t.Named
  | .typed _ _ hinput => hinput
  | .resolved _ _ hinput => hinput

theorem resolver (h : f.Sound) : ∀ q ∈ f.resolver, q.Sound := by
  cases h with
  | typed hname ht hinput => exact fun _ hq => nomatch hq
  | resolved hname hq hinput =>
      intro q' hq'
      cases hq'
      exact hq

end Field.Sound

/-- What there is of a field is sound. Its name may be missing still, as its type may. -/
structure Field.Built (f : Field) : Prop where
  type : ∀ t ∈ f.type, t.Named
  inputType : ∀ t ∈ f.inputType, t.Named
  resolver : ∀ q ∈ f.resolver, q.Sound

theorem Field.blank_built : Field.blank.Built := by
  constructor <;> exact fun _ h => nomatch h

theorem ResolverOf.blank_sound : ResolverOf.blank.Sound :=
  .mk ⟨rfl, rfl⟩ nofun nofun

theorem Field.checked_sound {f f' : Field} (h : f.checked = .ok f') (hf : f.Built) : f'.Sound := by
  obtain ⟨name, type, resolver, inputType⟩ := f
  unfold Field.checked at h
  split at h
  · cases h
  · rename_i hname
    cases resolver with
    | some q =>
        cases type with
        | some t => cases h
        | none =>
            cases h
            exact .resolved hname (hf.resolver q rfl) hf.inputType
    | none =>
        cases h
        refine .typed hname ?_ hf.inputType
        cases type with
        | some t => exact hf.type t rfl
        | none => exact FieldType.default_named

theorem KeyFieldEntry.toField_sound {e : KeyFieldEntry} {f : Field} (h : e.toField = .ok f)
    (he : ∀ f, e = .field f → f.Sound) : f.Sound := by
  cases e with
  | field f' =>
      cases h
      exact he f rfl
  | shorthand s =>
      unfold KeyFieldEntry.toField at h
      cases ha : Attribute.parse s with
      | error e => simp [ha] at h
      | ok a =>
          simp only [ha, Except.ok.injEq] at h
          subst h
          have ⟨hname, htype⟩ := Attribute.parse_sound ha
          exact .typed hname htype nofun

/-! ## Reading -/

theorem of_readOption_eq_ok {α : Type} {r : Reading} {read : Node → Except DecodeError α} {n : Node} {o : Option α}
    (h : n.readOption r read = .ok o) : ∀ a ∈ o, read n = .ok a := by
  obtain ⟨absent, _, h⟩ := bind_eq_ok.mp h
  intro a ha
  split at h
  · cases h
    cases ha
  · obtain ⟨a', hread, h⟩ := bind_eq_ok.mp h
    cases h
    cases ha
    exact hread

theorem types_of_readOption {r : Reading} {n : Node} {o : Option FieldType}
    (h : n.readOption r FieldType.decode = .ok o) : ∀ t ∈ o, t.Named :=
  fun t ht => FieldType.decode_named (of_readOption_eq_ok h t ht)

/-- What follows an optional resolver goes on with the one that has been read, if one has. -/
theorem exists_option {α β : Type} {absent : Bool} {read : Except DecodeError α}
    {next : Option α → Except DecodeError β} {b : β}
    (h : (if absent = true then pure none >>= next else (some <$> read) >>= next) = .ok b) :
    ∃ o, (∀ a ∈ o, read = .ok a) ∧ next o = .ok b := by
  split at h
  · exact ⟨none, nofun, h⟩
  · obtain ⟨o, ho, h⟩ := bind_eq_ok.mp h
    obtain ⟨a, hread, rfl⟩ := map_eq_ok.mp ho
    refine ⟨some a, ?_, h⟩
    intro a' ha'
    cases ha'
    exact hread

mutual
theorem fieldMembers_built {r : Reading} : (entries : List (Node × Node)) → ∀ {seen seen' : List FieldMember}
    {f f' : Field}, fieldMembers r entries seen f = .ok (seen', f') → f.Built → f'.Built
  | [], _, _, _, _, h, hf => by
      rw [fieldMembers] at h
      cases h
      exact hf
  | (key, value) :: entries, _, _, _, _, h, hf => by
      simp only [fieldMembers, bind_eq_ok] at h
      obtain ⟨member, _, seen, _, h⟩ := h
      -- one part of the field is replaced, and what has been built of the others stays
      cases member with
      | name =>
          obtain ⟨name, _, h⟩ := bind_eq_ok.mp h
          exact fieldMembers_built entries h { hf with }
      | type =>
          obtain ⟨type, htype, h⟩ := bind_eq_ok.mp h
          exact fieldMembers_built entries h { hf with type := types_of_readOption htype }
      | inputType =>
          obtain ⟨type, htype, h⟩ := bind_eq_ok.mp h
          exact fieldMembers_built entries h { hf with inputType := types_of_readOption htype }
      | resolver =>
          obtain ⟨absent, _, h⟩ := bind_eq_ok.mp h
          obtain ⟨q, hq, h⟩ := exists_option h
          exact fieldMembers_built entries h { hf with resolver := fun q' hq' => decode_sound value (hq q' hq') }

theorem fieldItems_built : (items : List Node) → ∀ {f : Field}, fieldItems items = .ok f → f.Built
  | [], _, h => by
      rw [fieldItems] at h
      cases h
      exact Field.blank_built
  | [name], _, h => by
      simp only [fieldItems, bind_eq_ok, pure_eq_ok] at h
      obtain ⟨_, _, rfl⟩ := h
      exact { Field.blank_built with }
  | [name, type], _, h => by
      simp only [fieldItems, bind_eq_ok, pure_eq_ok] at h
      obtain ⟨_, _, type, htype, rfl⟩ := h
      exact { Field.blank_built with type := types_of_readOption htype }
  | [name, type, resolver], _, h => by
      simp only [fieldItems, bind_eq_ok] at h
      obtain ⟨_, _, type, htype, absent, _, h⟩ := h
      obtain ⟨q, hq, h⟩ := exists_option h
      cases h
      exact { Field.blank_built with
        type := types_of_readOption htype
        resolver := fun q' hq' => decode_sound resolver (hq q' hq') }
  | [name, type, resolver, inputType], _, h => by
      simp only [fieldItems, bind_eq_ok] at h
      obtain ⟨_, _, type, htype, absent, _, h⟩ := h
      obtain ⟨q, hq, h⟩ := exists_option h
      obtain ⟨inputType, hinput, h⟩ := bind_eq_ok.mp h
      cases h
      exact {
        type := types_of_readOption htype
        inputType := types_of_readOption hinput
        resolver := fun q' hq' => decode_sound resolver (hq q' hq') }
  | _ :: _ :: _ :: _ :: _ :: _, _, h => nomatch h

theorem decode_sound {r : Reading} : (n : Node) → ∀ {q : Resolver}, ResolverOf.decode r n = .ok q → q.Sound
  | .mapping _ entries, _, h => by
      simp only [ResolverOf.decode, bind_eq_ok, pure_eq_ok] at h
      obtain ⟨⟨seen, q⟩, hread, _, _, rfl⟩ := h
      exact resolverMembers_sound entries hread ResolverOf.blank_sound
  | .sequence _ items, _, h => by
      rw [ResolverOf.decode] at h
      split at h
      · exact resolverItems_sound items h
      · cases h
  | .scalar s, _, h => by
      rw [ResolverOf.decode] at h
      split at h <;> cases h
  | .unreadable, _, h => by
      rw [ResolverOf.decode] at h
      cases h

theorem resolverMembers_sound {r : Reading} : (entries : List (Node × Node)) →
    ∀ {seen seen' : List ResolverMember} {q q' : Resolver},
    resolverMembers r entries seen q = .ok (seen', q') → q.Sound → q'.Sound
  | [], _, _, _, _, h, hq => by
      rw [resolverMembers] at h
      cases h
      exact hq
  | (key, value) :: entries, _, _, _, _, h, .mk hfresh htype hkeys => by
      simp only [resolverMembers, bind_eq_ok] at h
      obtain ⟨member, _, seen, _, h⟩ := h
      cases member <;> obtain ⟨a, ha, h⟩ := bind_eq_ok.mp h
      case source | action | template | sortDescending =>
          exact resolverMembers_sound entries h (.mk hfresh htype hkeys)
      case keyFields => exact resolverMembers_sound entries h (.mk hfresh htype (keyFields_sound value ha))
      case type => exact resolverMembers_sound entries h (.mk hfresh (types_of_readOption ha) hkeys)

theorem resolverItems_sound : (items : List Node) → ∀ {q : Resolver}, resolverItems items = .ok q → q.Sound
  | [], _, h | [_], _, h => nomatch h
  | [source, action], _, h => by
      simp only [resolverItems, bind_eq_ok, pure_eq_ok] at h
      obtain ⟨_, _, _, _, rfl⟩ := h
      exact .mk ⟨rfl, rfl⟩ nofun nofun
  | [source, action, fields], _, h => by
      simp only [resolverItems, bind_eq_ok, pure_eq_ok] at h
      obtain ⟨_, _, _, _, keys, hkeys, rfl⟩ := h
      exact .mk ⟨rfl, rfl⟩ nofun (keyFields_sound fields hkeys)
  | [source, action, fields, template], _, h => by
      simp only [resolverItems, bind_eq_ok, pure_eq_ok] at h
      obtain ⟨_, _, _, _, keys, hkeys, _, _, rfl⟩ := h
      exact .mk ⟨rfl, rfl⟩ nofun (keyFields_sound fields hkeys)
  | [source, action, fields, template, type], _, h => by
      simp only [resolverItems, bind_eq_ok, pure_eq_ok] at h
      obtain ⟨_, _, _, _, keys, hkeys, _, _, type, htype, rfl⟩ := h
      exact .mk ⟨rfl, rfl⟩ (types_of_readOption htype) (keyFields_sound fields hkeys)
  | [source, action, fields, template, type, descending], _, h => by
      simp only [resolverItems, bind_eq_ok, pure_eq_ok] at h
      obtain ⟨_, _, _, _, keys, hkeys, _, _, type, htype, _, _, rfl⟩ := h
      exact .mk ⟨rfl, rfl⟩ (types_of_readOption htype) (keyFields_sound fields hkeys)
  | _ :: _ :: _ :: _ :: _ :: _ :: _ :: _, _, h => by
      simp only [resolverItems, bind_eq_ok, reduceCtorEq, and_false, exists_false] at h

theorem keyFields_sound {r : Reading} : (n : Node) → ∀ {fields : List Field},
    keyFields r n = .ok fields → ∀ f ∈ fields, f.Sound
  | .sequence _ items, _, h => by
      rw [keyFields] at h
      -- all entries are read before the first shorthand among them is parsed
      obtain ⟨entries, hentries, h⟩ := bind_eq_ok.mp h
      intro f hf
      obtain ⟨e, he, hfield⟩ := exists_of_mem_mapM h hf
      exact KeyFieldEntry.toField_sound hfield (keyFieldEntries_sound items hentries e he)
  | .scalar s, _, h => by
      rw [keyFields] at h
      split at h
      · cases h
        exact fun _ hf => nomatch hf
      · split at h <;> cases h
        exact fun _ hf => nomatch hf
      · cases h
  | .mapping _ _, _, h => by
      rw [keyFields] at h
      cases h
  | .unreadable, _, h => by
      rw [keyFields] at h
      cases h

theorem keyFieldEntries_sound : (items : List Node) → ∀ {entries : List KeyFieldEntry},
    keyFieldEntries items = .ok entries → ∀ e ∈ entries, ∀ f, e = .field f → f.Sound
  | [], _, h => by
      rw [keyFieldEntries] at h
      cases h
      exact fun _ he => nomatch he
  | n :: ns, _, h => by
      simp only [keyFieldEntries, bind_eq_ok, pure_eq_ok] at h
      obtain ⟨entry, hentry, entries, hentries, rfl⟩ := h
      intro e he f hf
      rcases List.mem_cons.mp he with rfl | he
      · exact keyFieldEntry_sound n (hf ▸ hentry)
      · exact keyFieldEntries_sound ns hentries e he f hf

theorem keyFieldEntry_sound : (n : Node) → ∀ {f : Field}, keyFieldEntry n = .ok (.field f) → f.Sound
  | .scalar s, _, h => by
      rw [keyFieldEntry] at h
      obtain ⟨_, _, h⟩ := bind_eq_ok.mp h
      split at h <;> cases h
  | .unreadable, _, h => by
      rw [keyFieldEntry] at h
      obtain ⟨_, _, h⟩ := bind_eq_ok.mp h
      cases h
  | .sequence _ items, _, h => by
      rw [keyFieldEntry] at h
      obtain ⟨_, _, h⟩ := bind_eq_ok.mp h
      split at h
      · rename_i f' hf'
        obtain ⟨f, hchecked, hf⟩ := map_eq_ok.mp (mapError_eq_ok.mp h)
        cases hf
        exact Field.checked_sound hchecked (fieldItems_built items hf')
      · cases h
  | .mapping _ entries, _, h => by
      rw [keyFieldEntry] at h
      obtain ⟨_, _, h⟩ := bind_eq_ok.mp h
      split at h
      · rename_i seen f' hf'
        obtain ⟨f, hchecked, hf⟩ := map_eq_ok.mp (mapError_eq_ok.mp h)
        cases hf
        exact Field.checked_sound hchecked (fieldMembers_built entries hf' Field.blank_built)
      · cases h
end

theorem Field.decode_sound {r : Reading} {n : Node} {f : Field} (h : Field.decode r n = .ok f) : f.Sound := by
  obtain ⟨f₀, hread, hchecked⟩ := bind_eq_ok.mp h
  refine Field.checked_sound hchecked ?_
  cases n with
  | mapping style entries =>
      obtain ⟨⟨seen, f₁⟩, hmembers, hf⟩ := bind_eq_ok.mp hread
      cases hf
      exact fieldMembers_built entries hmembers Field.blank_built
  | sequence style items =>
      rw [Field.read] at hread
      split at hread
      · exact fieldItems_built items hread
      · cases hread
  | scalar s =>
      rw [Field.read] at hread
      split at hread
      · cases hread
        exact Field.blank_built
      · cases hread
  | unreadable => cases hread

end ApiManifest
