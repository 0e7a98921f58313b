import ApiManifest.Proofs.Manifest.TypeShorthand

/-!
# The forms of a key field

A key field is written as an attribute, as a record of a name and a type, or as a list of the two. Whatever else is
listed and whatever else the resolver says, the three are read alike; an attribute that is none is what is reported
of a resolver that is sound apart from it.
-/

namespace ApiManifest

open Yaml (Node)

/-! ## Attributes -/

namespace Attribute

/-- What is wrong with an attribute: the type after its first colon, or else its name, if that is only blanks. -/
inductive Faulty : String → AttributeError → Prop where
  | type {s : String} {name type : List Char} (hs : name ++ ':' :: type = s.toList) (hname : ':' ∉ name)
      (htype : ∀ t : FieldType, ¬ t.SpelledAs type) : Faulty s .badTypeDefinition
  | typedName {s : String} {name type : List Char} {t : FieldType} (hs : name ++ ':' :: type = s.toList)
      (hname : ':' ∉ name) (htype : t.SpelledAs type) (hblank : Text.Blank name) : Faulty s .missingName
  | name {s : String} (hname : ':' ∉ s.toList) (hblank : Text.Blank s.toList) : Faulty s .missingName

/-- The forms of a key field beside the attribute itself; the members of a record may come in any order. -/
def forms (a : Attribute) : List Json :=
  [.object [("name", a.name), ("type", a.type.shorthand)], .object [("type", a.type.shorthand), ("name", a.name)],
    .array [a.name, a.type.shorthand]]

variable {s : String} {name type : List Char}

theorem parse_of_colon (hs : name ++ ':' :: type = s.toList) (hname : ':' ∉ name) :
    parse s = FieldType.parse (String.ofList type) >>= fun t =>
      if (Text.trim name).isEmpty then .error .missingName else .ok { name := String.ofList (Text.trim name), type := t } := by
  rw [parse, ← hs, Text.splitOnce_append type hname]
  dsimp only
  cases FieldType.parse (String.ofList type) with
  | error e => rfl
  | ok t =>
      rw [ok_bind, ok_bind, pure_bind]
      split <;> rfl

theorem parse_of_notMem (hname : ':' ∉ s.toList) :
    parse s = if (Text.trim s.toList).isEmpty then .error .missingName
      else .ok { name := String.ofList (Text.trim s.toList), type := default } := by
  rw [parse, Text.splitOnce_eq_none.mpr hname]
  rfl

theorem parse_eq_error_iff {e : AttributeError} : parse s = .error e ↔ Faulty s e := by
  constructor
  · intro h
    cases hsplit : Text.splitOnce ':' s.toList with
    | none =>
        have hname := Text.splitOnce_eq_none.mp hsplit
        rw [parse_of_notMem hname] at h
        split at h
        · cases h
          exact .name hname (Text.isEmpty_trim_iff.mp ‹_›)
        · cases h
    | some parts =>
        obtain ⟨hname, hs⟩ := Text.splitOnce_eq_some hsplit
        rw [parse_of_colon hs hname] at h
        cases htype : FieldType.parse (String.ofList parts.2) with
        | error e' =>
            rw [htype, error_bind] at h
            cases FieldType.parse_eq_error htype
            cases h
            refine .type hs hname ?_
            simpa using FieldType.parse_eq_error_iff.mp htype
        | ok t =>
            rw [htype, ok_bind] at h
            split at h
            · cases h
              refine .typedName (t := t) hs hname ?_ (Text.isEmpty_trim_iff.mp ‹_›)
              simpa using FieldType.parse_eq_ok_iff.mp htype
            · cases h
  · intro h
    cases h with
    | @type name type hs hname htype =>
        have hbad : FieldType.parse (String.ofList type) = .error .badTypeDefinition :=
          FieldType.parse_eq_error_iff.mpr (by simpa using htype)
        rw [parse_of_colon hs hname, hbad, error_bind]
    | @typedName name type t hs hname htype hblank =>
        have hread : FieldType.parse (String.ofList type) = .ok t := FieldType.parse_eq_ok_iff.mpr (by simpa using htype)
        rw [parse_of_colon hs hname, hread, ok_bind, if_pos (Text.isEmpty_trim_iff.mpr hblank)]
    | name hname hblank => rw [parse_of_notMem hname, if_pos (Text.isEmpty_trim_iff.mpr hblank)]

end Attribute

/-! ## Entries -/

section

variable {r : Reading} {tag : Option Yaml.Tag}

theorem readString_string (text : String) : (Node.string text).readString r = .ok text := by
  cases r <;> rfl

theorem ofKey_string {μ : Type} [Members μ] {text : String} {m : μ} (h : Members.ofName? text = some m) :
    Members.ofKey r (Node.string text) = .ok m := by
  have hread : (Node.string text).readString r = .ok text := readString_string text
  have hmeaning : (Yaml.Scalar.quoted text).meaning = .string := rfl
  rw [Node.string] at hread ⊢
  cases r <;> simp only [Members.ofKey, hmeaning, hread, ok_bind, h]

theorem note_of_notMem {μ : Type} [Members μ] [DecidableEq μ] {m : μ} {seen : List μ} (h : m ∉ seen) :
    Members.note m seen = .ok (m :: seen) := by
  rw [Members.note, if_neg (by rwa [List.contains_iff_mem])]

section

variable {key value : Node} {entries : List (Node × Node)} {seen : List FieldMember} {f : Field}

theorem fieldMembers_name {name : String} (hkey : Members.ofKey r key = .ok FieldMember.name)
    (hnew : FieldMember.name ∉ seen) (hvalue : value.readString r = .ok name) :
    fieldMembers r ((key, value) :: entries) seen f = fieldMembers r entries (.name :: seen) { f with name } := by
  rw [fieldMembers, hkey, ok_bind, note_of_notMem hnew, ok_bind, hvalue, ok_bind]

theorem fieldMembers_type {type : Option FieldType} (hkey : Members.ofKey r key = .ok FieldMember.type)
    (hnew : FieldMember.type ∉ seen) (hvalue : value.readOption r FieldType.decode = .ok type) :
    fieldMembers r ((key, value) :: entries) seen f = fieldMembers r entries (.type :: seen) { f with type } := by
  rw [fieldMembers, hkey, ok_bind, note_of_notMem hnew, ok_bind, hvalue, ok_bind]

end

theorem decodeType_string (s : String) :
    FieldType.decode (Node.string s) = (FieldType.parse s).mapError .ofAttributeError :=
  rfl

theorem readType_string {s : String} {t : FieldType} (h : FieldType.parse s = .ok t) :
    (Node.string s).readOption .entry FieldType.decode = .ok (some t) := by
  have habsent : (Node.string s).isAbsent .entry = .ok false := rfl
  rw [Node.readOption, habsent, ok_bind, decodeType_string, h]
  rfl

theorem keyFieldEntry_string (s : String) : keyFieldEntry (Node.string s) = .ok (.shorthand s) :=
  rfl

theorem checked_typed {name : String} (hname : name ≠ "") (type : FieldType) :
    Field.checked { name, type := some type } = .ok (Field.typed name type) := by
  rw [Field.checked, if_neg hname]
  rfl

theorem keyFieldEntry_of_members {entries : List (Node × Node)} {seen : List FieldMember} {f f' : Field}
    (htags : (Node.mapping tag entries).checkTags = .ok ())
    (hmembers : fieldMembers .entry entries [] .blank = .ok (seen, f)) (hchecked : f.checked = .ok f') :
    keyFieldEntry (.mapping tag entries) = .ok (.field f') := by
  rw [keyFieldEntry, htags, hmembers]
  simp only [hchecked]
  rfl

theorem keyFieldEntry_of_items {items : List Node} {f f' : Field} (htags : (Node.sequence tag items).checkTags = .ok ())
    (hitems : fieldItems items = .ok f) (hchecked : f.checked = .ok f') :
    keyFieldEntry (.sequence tag items) = .ok (.field f') := by
  rw [keyFieldEntry, htags, hitems]
  simp only [hchecked]
  rfl

theorem keyFieldEntry_form {a : Attribute} (hname : a.name ≠ "") (htype : a.type.Named) :
    ∀ form ∈ a.forms, keyFieldEntry (Node.ofJson form) = .ok (.field (Field.typed a.name a.type)) := by
  have hread := readType_string (FieldType.parse_shorthand htype)
  have hchecked := checked_typed hname a.type
  have hn : Members.ofKey .entry (Node.string "name") = .ok FieldMember.name := ofKey_string (by decide)
  have ht : Members.ofKey .entry (Node.string "type") = .ok FieldMember.type := ofKey_string (by decide)
  intro form hform
  simp only [Attribute.forms, List.mem_cons, List.not_mem_nil, or_false] at hform
  rcases hform with rfl | rfl | rfl
  · have hmembers : fieldMembers .entry [(Node.string "name", Node.string a.name),
        (Node.string "type", Node.string a.type.shorthand)] [] .blank =
          .ok ([.type, .name], { name := a.name, type := some a.type }) := by
      rw [fieldMembers_name hn (by decide) (readString_string _), fieldMembers_type ht (by decide) hread]
      rfl
    exact keyFieldEntry_of_members rfl hmembers hchecked
  · have hmembers : fieldMembers .entry [(Node.string "type", Node.string a.type.shorthand),
        (Node.string "name", Node.string a.name)] [] .blank =
          .ok ([.name, .type], { name := a.name, type := some a.type }) := by
      rw [fieldMembers_type ht (by decide) hread, fieldMembers_name hn (by decide) (readString_string _)]
      rfl
    exact keyFieldEntry_of_members rfl hmembers hchecked
  · have hitems : fieldItems [Node.string a.name, Node.string a.type.shorthand] =
        .ok { name := a.name, type := some a.type } := by
      rw [fieldItems, readString_string, hread]
      rfl
    exact keyFieldEntry_of_items rfl hitems hchecked

theorem keyFieldEntries_eq_mapM (ns : List Node) : keyFieldEntries ns = ns.mapM keyFieldEntry := by
  induction ns with
  | nil => rfl
  | cons n ns ih => rw [keyFieldEntries, ih, List.mapM_cons]

/-- An entry that can be told what it is stands among the others, and then all are read. -/
theorem keyFields_around {n : Node} {e : KeyFieldEntry} (he : keyFieldEntry n = .ok e) (xs ys : List Node) :
    keyFields r (.sequence tag (xs ++ n :: ys)) =
      xs.mapM keyFieldEntry >>= fun es => ys.mapM keyFieldEntry >>= fun fs =>
        (es ++ e :: fs).mapM KeyFieldEntry.toField := by
  rw [keyFields, keyFieldEntries_eq_mapM, List.mapM_append]
  simp only [List.mapM_cons, he, bind_assoc, pure_bind]
  rfl

end

/-! ## Resolvers -/

theorem resolverMembers_append {r : Reading} (before after : List (Node × Node)) (seen : List ResolverMember)
    (q : Resolver) : resolverMembers r (before ++ after) seen q =
      resolverMembers r before seen q >>= fun p => resolverMembers r after p.1 p.2 := by
  induction before generalizing seen q with
  | nil => rfl
  | cons e before ih =>
      obtain ⟨key, value⟩ := e
      simp only [List.cons_append, resolverMembers, bind_assoc]
      congr
      funext m
      congr
      funext seen
      cases m <;> simp only [bind_assoc, ih]

theorem resolverMembers_keyFields {r : Reading} {key n : Node} {entries : List (Node × Node)}
    {seen : List ResolverMember} {q : Resolver} (hkey : Members.ofKey r key = .ok ResolverMember.keyFields) :
    resolverMembers r ((key, n) :: entries) seen q =
      Members.note .keyFields seen >>= fun seen => keyFields r n >>= fun fields =>
        resolverMembers r entries seen { q with keyFields := fields } := by
  rw [resolverMembers, hkey]
  rfl

theorem decode_around {r : Reading} (tag : Option Yaml.Tag) (before after : List (Node × Node)) (n : Node) :
    ResolverOf.decode r (.mapping tag (before ++ (Node.string "keyFields", n) :: after)) =
      resolverMembers r before [] .blank >>= fun p => Members.note .keyFields p.1 >>= fun seen =>
        keyFields r n >>= fun fields => resolverMembers r after seen { p.2 with keyFields := fields } >>= fun p' =>
          Members.require ResolverMember.action p'.1 >>= fun _ => .ok p'.2 := by
  have hkey : Members.ofKey r (Node.string "keyFields") = .ok ResolverMember.keyFields := ofKey_string (by decide)
  rw [ResolverOf.decode, resolverMembers_append]
  simp only [resolverMembers_keyFields hkey, bind_assoc]
  rfl

section

variable {r : Reading} {tag : Option Yaml.Tag} {before after : List (Node × Node)} {n n' : Node}

theorem decode_congr (h : keyFields r n = keyFields r n') :
    ResolverOf.decode r (.mapping tag (before ++ (Node.string "keyFields", n) :: after)) =
      ResolverOf.decode r (.mapping tag (before ++ (Node.string "keyFields", n') :: after)) := by
  rw [decode_around, decode_around, h]

theorem decode_eq_ok {q : Resolver}
    (h : ResolverOf.decode r (.mapping tag (before ++ (Node.string "keyFields", n) :: after)) = .ok q) :
    (∃ fields, keyFields r n = .ok fields) ∧ ∀ n' e, keyFields r n' = .error e →
      ResolverOf.decode r (.mapping tag (before ++ (Node.string "keyFields", n') :: after)) = .error e := by
  rw [decode_around] at h
  obtain ⟨p, hbefore, h⟩ := bind_eq_ok.mp h
  obtain ⟨seen, hnote, h⟩ := bind_eq_ok.mp h
  obtain ⟨fields, hfields, _⟩ := bind_eq_ok.mp h
  refine ⟨⟨fields, hfields⟩, fun n' e he => ?_⟩
  rw [decode_around, hbefore, ok_bind, hnote, ok_bind, he, error_bind]

theorem keyFields_eq_error {xs ys : List Node} {fields : List Field} {entry : KeyFieldEntry} {e : DecodeError}
    (h : keyFields r (.sequence tag (xs ++ n :: ys)) = .ok fields) (hentry : keyFieldEntry n' = .ok entry)
    (hfield : entry.toField = .error e) : keyFields r (.sequence tag (xs ++ n' :: ys)) = .error e := by
  cases hn : keyFieldEntry n with
  | error e' =>
      rw [keyFields, keyFieldEntries_eq_mapM, List.mapM_append] at h
      obtain ⟨entries, h, _⟩ := bind_eq_ok.mp h
      obtain ⟨es, _, h⟩ := bind_eq_ok.mp h
      rw [List.mapM_cons, hn] at h
      cases h
  | ok other =>
      rw [keyFields_around hn] at h
      obtain ⟨es, hes, h⟩ := bind_eq_ok.mp h
      obtain ⟨fs, hfs, h⟩ := bind_eq_ok.mp h
      rw [List.mapM_append] at h
      obtain ⟨first, hfirst, _⟩ := bind_eq_ok.mp h
      rw [keyFields_around hentry, hes, ok_bind, hfs, ok_bind, List.mapM_append, hfirst, ok_bind, List.mapM_cons, hfield,
        error_bind, error_bind]

end

/-- All forms of an attribute are read alike among any other key fields and in any resolver. Where the attribute is
none, that is what is reported of a resolver that can be read with something else in its place; its type is looked
at before its name. -/
theorem keyField_forms_agree (r : Reading) (tag tag' : Option Yaml.Tag) (before after : List (Node × Node))
    (xs ys : List Node) (s : String) :
    let read (entry : Node) := ResolverOf.decode r
      (.mapping tag (before ++ (Node.string "keyFields", .sequence tag' (xs ++ entry :: ys)) :: after))
    (∀ a, Attribute.parse s = .ok a → ∀ form ∈ a.forms, read (Node.ofJson form) = read (Node.string s)) ∧
    (∀ e, Attribute.parse s = .error e → (∃ other q, read other = .ok q) →
      read (Node.string s) = .error (.ofAttributeError e)) ∧
    ∀ e, Attribute.parse s = .error e ↔ Attribute.Faulty s e := by
  intro read
  refine ⟨?_, ?_, fun e => Attribute.parse_eq_error_iff⟩
  · intro a ha form hform
    obtain ⟨hname, htype⟩ := Attribute.parse_sound ha
    have hfield : (KeyFieldEntry.shorthand s).toField = .ok (Field.typed a.name a.type) := by
      simp only [KeyFieldEntry.toField, ha]
    refine decode_congr ?_
    rw [keyFields_around (keyFieldEntry_form hname htype form hform), keyFields_around (keyFieldEntry_string s)]
    simp only [List.mapM_append, List.mapM_cons, hfield]
    rfl
  · rintro e he ⟨other, q, hq⟩
    have hfield : (KeyFieldEntry.shorthand s).toField = .error (.ofAttributeError e) := by
      simp only [KeyFieldEntry.toField, he]
    obtain ⟨⟨_, hkeys⟩, hreported⟩ := decode_eq_ok hq
    exact hreported _ _ (keyFields_eq_error hkeys (keyFieldEntry_string s) hfield)

example : Attribute.parse " : [ID" = .error .badTypeDefinition ∧ Attribute.parse " : ID" = .error .missingName :=
  ⟨rfl, rfl⟩

end ApiManifest
