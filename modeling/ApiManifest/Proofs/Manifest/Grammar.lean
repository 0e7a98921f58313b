import ApiManifest.Proofs.Manifest.Fields
import Mathlib.Data.List.Nodup

/-!
# Documents that can be read

What may stand in each place of a document, told without reading it: a record has entries for its members, each
member at most once, or it lists its first members; whatever is wanted nowhere does not fit. All that is read fits.
-/

namespace ApiManifest

open Yaml (Node)

/-! ## Places and members -/

inductive Record where
  | manifest
  | operation
  | field
  | resolver
  | source
  | dynamo
  | sql
  | lambda
  deriving DecidableEq, Repr

inductive Want where
  | string
  | flag
  | type
  | keyField
  | record (k : Record)
  | option (w : Want)
  | list (w : Want)
  | dict (w : Want)
  deriving DecidableEq, Repr

structure Member where
  names : List String
  want : Want
  deriving DecidableEq, Repr

def ManifestMember.want : ManifestMember → Want
  | .version => .string
  | .apiNameSuffix => .string
  | .enums => .dict (.list .string)
  | .objects => .dict (.list (.record .field))
  | .queries => .list (.record .operation)
  | .mutations => .list (.record .operation)
  | .sources => .dict (.record .source)

def OperationMember.want : OperationMember → Want
  | .name => .string
  | .type => .type
  | .resolver => .option (.record .resolver)

def FieldMember.want : FieldMember → Want
  | .name => .string
  | .type => .option .type
  | .resolver => .option (.record .resolver)
  | .inputType => .option .type

def ResolverMember.want : ResolverMember → Want
  | .source => .string
  | .action => .string
  | .keyFields => .option (.list .keyField)
  | .template => .option .string
  | .type => .option .type
  | .sortDescending => .flag

def DataSourceMember.want : DataSourceMember → Want
  | .dynamo => .option (.record .dynamo)
  | .sql => .option (.record .sql)
  | .lambda => .option (.record .lambda)

def DynamoMember.want : DynamoMember → Want
  | .hashKey => .string
  | .sortKey => .option .string
  | .disableBackup => .flag

def SqlMember.want : SqlMember → Want
  | .primaryKey => .string
  | .database => .option .string

def LambdaMember.want : LambdaMember → Want
  | .functionName => .option .string
  | .functionArn => .option .string

def Members.describe {μ : Type} [Members μ] (want : μ → Want) (m : μ) : Member :=
  { names := Members.spellings m, want := want m }

def Record.members : Record → List Member
  | .manifest => Members.all.map (Members.describe ManifestMember.want)
  | .operation => Members.all.map (Members.describe OperationMember.want)
  | .field => Members.all.map (Members.describe FieldMember.want)
  | .resolver => Members.all.map (Members.describe ResolverMember.want)
  | .source => Members.all.map (Members.describe DataSourceMember.want)
  | .dynamo => Members.all.map (Members.describe DynamoMember.want)
  | .sql => Members.all.map (Members.describe SqlMember.want)
  | .lambda => Members.all.map (Members.describe LambdaMember.want)

theorem Record.nodup_members (k : Record) : k.members.Nodup := by
  cases k <;> decide

/-- The key names that member: by one of its names, or inside a key field by its number. -/
inductive Names (k : Record) : Reading → Node → Member → Prop where
  | name {r : Reading} {s : Yaml.Scalar} {m : Member} (hm : m ∈ k.members) (hs : s.text ∈ m.names) :
      Names k r (.scalar s) m
  | number {s : Yaml.Scalar} {n : Nat} {m : Member} (hs : s.meaning = .number (.whole (.ofNat n)))
      (hm : k.members[n]? = some m) : Names k .entry (.scalar s) m

theorem Names.mem {k : Record} {r : Reading} {key : Node} {m : Member} : Names k r key m → m ∈ k.members
  | .name hm _ => hm
  | .number _ hm => List.mem_of_getElem? hm

/-! ## Fitting documents -/

mutual

/-- The part of a document has the form that is wanted in its place. -/
inductive Fits : Reading → Want → Node → Prop where
  | string {r : Reading} (s : Yaml.Scalar) : Fits r .string (.scalar s)
  | flag {r : Reading} (s : Yaml.Scalar) : Fits r .flag (.scalar s)
  | type {r : Reading} (s : Yaml.Scalar) : Fits r .type (.scalar s)
  | listType {r : Reading} (tag : Option Yaml.Tag) (s : Yaml.Scalar) : Fits r .type (.sequence tag [.scalar s])
  | shorthand {r : Reading} (s : Yaml.Scalar) : Fits r .keyField (.scalar s)
  | keyField {r : Reading} {n : Node} (h : Fits .entry (.record .field) n) : Fits r .keyField n
  | vacantRecord {r : Reading} {k : Record} {s : Yaml.Scalar} (hs : Node.isVacant r s = true) :
      Fits r (.record k) (.scalar s)
  | record {r : Reading} {k : Record} {tag : Option Yaml.Tag} {entries : List (Node × Node)}
      (h : FitsEntries r k [] entries) : Fits r (.record k) (.mapping tag entries)
  | listed {k : Record} {tag : Option Yaml.Tag} {items : List Node} (h : FitsItems k.members items) :
      Fits .entry (.record k) (.sequence tag items)
  | absent {r : Reading} {w : Want} {s : Yaml.Scalar} (hs : Node.isAbsent r (.scalar s) = .ok true) :
      Fits r (.option w) (.scalar s)
  | present {r : Reading} {w : Want} {n : Node} (h : Fits r w n) : Fits r (.option w) n
  | vacantList {r : Reading} {w : Want} {s : Yaml.Scalar} (hs : Node.isVacant r s = true) :
      Fits r (.list w) (.scalar s)
  | list {r : Reading} {w : Want} {tag : Option Yaml.Tag} {items : List Node} (h : ∀ n ∈ items, Fits r w n) :
      Fits r (.list w) (.sequence tag items)
  | vacantDict {r : Reading} {w : Want} {s : Yaml.Scalar} (hs : Node.isVacant r s = true) :
      Fits r (.dict w) (.scalar s)
  | dict {r : Reading} {w : Want} {tag : Option Yaml.Tag} {entries : List (Node × Node)}
      (hkey : ∀ e ∈ entries, Fits r .string e.1) (h : ∀ e ∈ entries, Fits r w e.2) :
      Fits r (.dict w) (.mapping tag entries)

/-- Each entry names a member of the record that no entry has named so far, and its value is what is wanted there. -/
inductive FitsEntries : Reading → Record → List Member → List (Node × Node) → Prop where
  | nil {r : Reading} {k : Record} {seen : List Member} : FitsEntries r k seen []
  | cons {r : Reading} {k : Record} {seen : List Member} {key value : Node} {m : Member}
      {entries : List (Node × Node)} (hkey : Names k r key m) (hnew : m ∉ seen) (hvalue : Fits r m.want value)
      (hrest : FitsEntries r k (m :: seen) entries) : FitsEntries r k seen ((key, value) :: entries)

/-- The items are what is wanted in the place of the first members, of as many as there are. -/
inductive FitsItems : List Member → List Node → Prop where
  | nil {ms : List Member} : FitsItems ms []
  | cons {m : Member} {ms : List Member} {n : Node} {ns : List Node} (hitem : Fits .entry m.want n)
      (hrest : FitsItems ms ns) : FitsItems (m :: ms) (n :: ns)

end

/-! ## Simple places -/

section
variable {r : Reading} {n : Node}

theorem of_readString_eq_ok {text : String} (h : n.readString r = .ok text) : ∃ s, n = .scalar s ∧ s.text = text := by
  cases n with
  | scalar s =>
      rw [Node.readString] at h
      split at h
      · exact ⟨s, rfl, Except.ok.inj h⟩
      · cases h
  | sequence tag items => cases h
  | mapping tag entries => cases h
  | unreadable => cases h

theorem fits_of_readString {text : String} (h : n.readString r = .ok text) : Fits r .string n := by
  obtain ⟨s, rfl, _⟩ := of_readString_eq_ok h
  exact .string s

theorem fits_of_readBool {b : Bool} (h : n.readBool r = .ok b) : Fits r .flag n := by
  cases n with
  | scalar s => exact .flag s
  | sequence tag items => cases h
  | mapping tag entries => cases h
  | unreadable => cases h

theorem ofTag_eq {tag : Option Yaml.Tag} {v v' : Yaml.Value} (h : Yaml.Value.ofTag tag v = v')
    (hv : ∀ name u, v' ≠ .typed name u) : v = v' := by
  unfold Yaml.Value.ofTag at h
  split at h
  · exact absurd h.symm (hv _ _)
  · exact h

theorem untyped_cases {v : Yaml.Value} (h : Yaml.Value.ofNode n = .ok v) (hv : ∀ name u, v ≠ .typed name u) :
    (∃ s, n = .scalar s) ∨
      (∃ tag items vs, n = .sequence tag items ∧ Yaml.Value.ofItems items = .ok vs ∧ v = .sequence vs) ∨
      ∃ es, v = .mapping es := by
  cases n with
  | scalar s => exact .inl ⟨s, rfl⟩
  | sequence tag items =>
      obtain ⟨vs, hvs, h⟩ := bind_eq_ok.mp h
      exact .inr (.inl ⟨tag, items, vs, rfl, hvs, (ofTag_eq (Except.ok.inj h) hv).symm⟩)
  | mapping tag entries =>
      obtain ⟨es, _, h⟩ := bind_eq_ok.mp h
      exact .inr (.inr ⟨es, (ofTag_eq (Except.ok.inj h) hv).symm⟩)
  | unreadable => cases h

theorem ofValue_cases {v : Yaml.Value} {t : FieldType} (h : FieldType.ofValue v = .ok t) :
    v = .null ∨ (∃ s, v = .string s) ∨ ∃ s, v = .sequence [.string s] := by
  unfold FieldType.ofValue at h
  split at h
  · exact .inl rfl
  · exact .inr (.inl ⟨_, rfl⟩)
  · exact .inr (.inr ⟨_, rfl⟩)
  · cases h

theorem items_of_singleton {items : List Node} {v : Yaml.Value} (h : Yaml.Value.ofItems items = .ok [v]) :
    ∃ n, items = [n] ∧ Yaml.Value.ofNode n = .ok v := by
  match items with
  | [] => cases h
  | [n] =>
      simp only [Yaml.Value.ofItems, bind_eq_ok, pure_eq_ok, List.cons.injEq] at h
      obtain ⟨_, hn, _, _, rfl, _⟩ := h
      exact ⟨n, rfl, hn⟩
  | _ :: _ :: _ =>
      simp only [Yaml.Value.ofItems, bind_eq_ok, pure_eq_ok, List.cons.injEq] at h
      obtain ⟨_, _, _, ⟨_, _, _, _, rfl⟩, _, h⟩ := h
      cases h

theorem fits_of_decodeType {t : FieldType} (h : FieldType.decode n = .ok t) : Fits r .type n := by
  obtain ⟨v, hv, ht⟩ := bind_eq_ok.mp h
  have hv := mapError_eq_ok.mp hv
  have ht := ofValue_cases (mapError_eq_ok.mp ht)
  have huntyped : ∀ name u, v ≠ .typed name u := by rcases ht with rfl | ⟨_, rfl⟩ | ⟨_, rfl⟩ <;> exact nofun
  rcases untyped_cases hv huntyped with ⟨s, rfl⟩ | ⟨tag, items, vs, rfl, hvs, rfl⟩ | ⟨es, rfl⟩
  · exact .type s
  · obtain ⟨s, hs⟩ : ∃ s, vs = [.string s] := by simpa using ht
    subst hs
    obtain ⟨n, rfl, hn⟩ := items_of_singleton hvs
    obtain ⟨s, rfl⟩ : ∃ s, n = .scalar s := by simpa using untyped_cases hn nofun
    exact .listType tag s
  · simp at ht

theorem absent_scalar (h : n.isAbsent r = .ok true) {w : Want} : Fits r (.option w) n := by
  cases n with
  | scalar s => exact .absent h
  | sequence tag items => cases h
  | mapping tag entries => cases h
  | unreadable => cases h

theorem fits_of_readOption {α : Type} {read : Node → Except DecodeError α} {w : Want} {o : Option α}
    (hread : ∀ a, read n = .ok a → Fits r w n) (h : n.readOption r read = .ok o) : Fits r (.option w) n := by
  obtain ⟨absent, habsent, h⟩ := bind_eq_ok.mp h
  cases absent with
  | true => exact absent_scalar habsent
  | false =>
      obtain ⟨a, ha, _⟩ := bind_eq_ok.mp h
      exact .present (hread a ha)

theorem fits_of_decodeList {α : Type} {read : Node → Except DecodeError α} {w : Want} {as : List α}
    (hread : ∀ n a, read n = .ok a → Fits r w n) (h : decodeList r read n = .ok as) : Fits r (.list w) n := by
  obtain ⟨items, hitems, h⟩ := bind_eq_ok.mp h
  cases n with
  | sequence tag ns =>
      cases hitems
      refine .list fun n hn => ?_
      obtain ⟨a, ha⟩ := exists_of_mapM_eq_ok h hn
      exact hread n a ha
  | scalar s =>
      rw [Node.readItems] at hitems
      split at hitems
      · exact .vacantList ‹_›
      · cases hitems
  | mapping tag entries => cases hitems
  | unreadable => cases hitems

theorem vacant_of_readEntries {s : Yaml.Scalar} {entries : List (Node × Node)}
    (h : (Node.scalar s).readEntries r = .ok entries) : Node.isVacant r s = true := by
  rw [Node.readEntries] at h
  split at h
  · assumption
  · cases h

theorem fits_of_decodeDict {α : Type} {read : Node → Except DecodeError α} {w : Want} {d : Dict α}
    (hread : ∀ n a, read n = .ok a → Fits r w n) (h : decodeDict r read n = .ok d) : Fits r (.dict w) n := by
  obtain ⟨entries, hentries, h⟩ := bind_eq_ok.mp h
  obtain ⟨pairs, hpairs, _⟩ := bind_eq_ok.mp h
  cases n with
  | mapping tag es =>
      cases hentries
      have hentry : ∀ e ∈ entries, Fits r .string e.1 ∧ Fits r w e.2 := by
        intro e he
        obtain ⟨a, ha⟩ := exists_of_mapM_eq_ok hpairs he
        obtain ⟨name, hname, ha⟩ := bind_eq_ok.mp ha
        obtain ⟨a, ha, _⟩ := bind_eq_ok.mp ha
        exact ⟨fits_of_readString hname, hread _ _ ha⟩
      exact .dict (fun e he => (hentry e he).1) fun e he => (hentry e he).2
  | scalar s => exact .vacantDict (vacant_of_readEntries hentries)
  | sequence tag items => cases hentries
  | unreadable => cases hentries

end

/-! ## Records -/

/-- The members that are read there are those of the record. -/
structure Members.Describe {μ : Type} [Members μ] (k : Record) (want : μ → Want) : Prop where
  members : k.members = Members.all.map (Members.describe want)
  all : ∀ m : μ, m ∈ Members.all

theorem FieldMember.described : Members.Describe .field FieldMember.want :=
  ⟨rfl, by rintro ⟨⟩ <;> decide⟩

theorem ResolverMember.described : Members.Describe .resolver ResolverMember.want :=
  ⟨rfl, by rintro ⟨⟩ <;> decide⟩

namespace Members.Describe

variable {μ : Type} [Members μ] {r : Reading} {k : Record} {want : μ → Want}

theorem injective (hk : Describe k want) {m m' : μ} (h : describe want m = describe want m') : m = m' :=
  List.inj_on_of_nodup_map (hk.members ▸ k.nodup_members) (hk.all m) (hk.all m') h

theorem names (hk : Describe k want) {key : Node} {m : μ} (h : ofKey r key = .ok m) : Names k r key (describe want m) := by
  unfold ofKey at h
  simp only at h
  split at h
  · -- the member is counted
    rename_i m' hnumber
    cases h
    split at hnumber
    · split at hnumber
      · rename_i n hs
        split at hnumber
        · cases hnumber
        · refine .number hs ?_
          rw [hk.members, List.getElem?_map, hnumber, Option.map_some]
      · cases hnumber
    · cases hnumber
  · obtain ⟨text, htext, h⟩ := bind_eq_ok.mp h
    split at h
    · rename_i m' hname
      cases h
      obtain ⟨s, rfl, rfl⟩ := of_readString_eq_ok htext
      have hspelt : (spellings m).contains s.text = true :=
        List.find?_some (p := fun m : μ => (spellings m).contains s.text) hname
      refine .name ?_ (List.contains_iff_mem.mp hspelt)
      rw [hk.members]
      exact List.mem_map_of_mem (List.mem_of_find?_eq_some hname)
    · cases h

variable [DecidableEq μ]

theorem entry (hk : Describe k want) {key value : Node} {entries : List (Node × Node)} {m : μ} {seen seen' : List μ}
    (hkey : ofKey r key = .ok m) (hnote : note m seen = .ok seen') (hvalue : Fits r (want m) value)
    (hrest : FitsEntries r k (seen'.map (describe want)) entries) :
    FitsEntries r k (seen.map (describe want)) ((key, value) :: entries) := by
  unfold note at hnote
  split at hnote
  · cases hnote
  · rename_i hnew
    cases hnote
    refine .cons (hk.names hkey) ?_ hvalue hrest
    rw [List.mem_map]
    rintro ⟨m', hm', he⟩
    exact hnew (List.contains_iff_mem.mpr (hk.injective he ▸ hm'))

theorem entries {σ : Type} {set : μ → Node → σ → Except DecodeError σ} (hk : Describe k want)
    (hset : ∀ m n record record', set m n record = .ok record' → Fits r (want m) n) :
    (entries : List (Node × Node)) → ∀ {seen seen' : List μ} {record record' : σ},
      Members.read r set entries seen record = .ok (seen', record') →
        FitsEntries r k (seen.map (describe want)) entries
  | [], _, _, _, _, _ => .nil
  | (key, value) :: entries, _, _, _, _, h => by
      simp only [Members.read, bind_eq_ok] at h
      obtain ⟨m, hkey, _, hnote, record, hvalue, h⟩ := h
      exact hk.entry hkey hnote (hset m value _ _ hvalue) (hk.entries hset entries h)

theorem record {σ : Type} {set : μ → Node → σ → Except DecodeError σ} {n : Node} {entries : List (Node × Node)}
    {seen : List μ} {record record' : σ} (hk : Describe k want)
    (hset : ∀ m n record record', set m n record = .ok record' → Fits r (want m) n)
    (hentries : n.readEntries r = .ok entries) (h : Members.read r set entries [] record = .ok (seen, record')) :
    Fits r (.record k) n := by
  cases n with
  | mapping tag es =>
      cases hentries
      exact .record (hk.entries hset _ h)
  | scalar s => exact .vacantRecord (vacant_of_readEntries hentries)
  | sequence tag items => cases hentries
  | unreadable => cases hentries

end Members.Describe

/-! ## Fields and resolvers -/

theorem fits_of_option {α β : Type} {r : Reading} {n : Node} {w : Want} {absent : Bool} {read : Except DecodeError α}
    {next : Option α → Except DecodeError β} {b : β} (hread : ∀ a, read = .ok a → Fits r w n)
    (habsent : n.isAbsent r = .ok absent)
    (h : (if absent = true then pure none >>= next else (some <$> read) >>= next) = .ok b) :
    Fits r (.option w) n ∧ ∃ o, next o = .ok b := by
  cases absent with
  | true => exact ⟨absent_scalar habsent, none, h⟩
  | false =>
      obtain ⟨o, ho, h⟩ := bind_eq_ok.mp h
      obtain ⟨a, ha, rfl⟩ := map_eq_ok.mp ho
      exact ⟨.present (hread a ha), some a, h⟩

theorem fits_of_optionString {r : Reading} {n : Node} {o : Option String}
    (h : n.readOption r (Node.readString r) = .ok o) : Fits r (.option .string) n :=
  fits_of_readOption (fun _ => fits_of_readString) h

theorem fits_of_optionType {r : Reading} {n : Node} {o : Option FieldType}
    (h : n.readOption r FieldType.decode = .ok o) : Fits r (.option .type) n :=
  fits_of_readOption (fun _ => fits_of_decodeType) h

mutual
theorem fieldMembers_fits {r : Reading} : (entries : List (Node × Node)) → ∀ {seen seen' : List FieldMember}
    {f f' : Field}, fieldMembers r entries seen f = .ok (seen', f') →
      FitsEntries r .field (seen.map (Members.describe FieldMember.want)) entries
  | [], _, _, _, _, _ => .nil
  | (key, value) :: entries, _, _, _, _, h => by
      simp only [fieldMembers, bind_eq_ok] at h
      obtain ⟨member, hkey, seen, hnote, h⟩ := h
      cases member with
      | name =>
          obtain ⟨name, hname, h⟩ := bind_eq_ok.mp h
          exact FieldMember.described.entry hkey hnote (fits_of_readString hname) (fieldMembers_fits entries h)
      | type =>
          obtain ⟨type, htype, h⟩ := bind_eq_ok.mp h
          exact FieldMember.described.entry hkey hnote (fits_of_optionType htype) (fieldMembers_fits entries h)
      | inputType =>
          obtain ⟨type, htype, h⟩ := bind_eq_ok.mp h
          exact FieldMember.described.entry hkey hnote (fits_of_optionType htype) (fieldMembers_fits entries h)
      | resolver =>
          obtain ⟨absent, habsent, h⟩ := bind_eq_ok.mp h
          obtain ⟨hresolver, q, h⟩ := fits_of_option (fun _ => resolver_fits value) habsent h
          exact FieldMember.described.entry hkey hnote hresolver (fieldMembers_fits entries h)

theorem fieldItems_fits : (items : List Node) → ∀ {f : Field}, fieldItems items = .ok f →
    FitsItems Record.field.members items
  | [], _, _ => .nil
  | [name], _, h => by
      simp only [fieldItems, bind_eq_ok] at h
      obtain ⟨_, hname, _⟩ := h
      exact .cons (fits_of_readString hname) .nil
  | [name, type], _, h => by
      simp only [fieldItems, bind_eq_ok] at h
      obtain ⟨_, hname, _, htype, _⟩ := h
      exact .cons (fits_of_readString hname) (.cons (fits_of_optionType htype) .nil)
  | [name, type, resolver], _, h => by
      simp only [fieldItems, bind_eq_ok] at h
      obtain ⟨_, hname, _, htype, absent, habsent, h⟩ := h
      obtain ⟨hresolver, _⟩ := fits_of_option (fun _ => resolver_fits resolver) habsent h
      exact .cons (fits_of_readString hname) (.cons (fits_of_optionType htype) (.cons hresolver .nil))
  | [name, type, resolver, inputType], _, h => by
      simp only [fieldItems, bind_eq_ok] at h
      obtain ⟨_, hname, _, htype, absent, habsent, h⟩ := h
      obtain ⟨hresolver, q, h⟩ := fits_of_option (fun _ => resolver_fits resolver) habsent h
      obtain ⟨_, hinput, _⟩ := bind_eq_ok.mp h
      exact .cons (fits_of_readString hname)
        (.cons (fits_of_optionType htype) (.cons hresolver (.cons (fits_of_optionType hinput) .nil)))
  | _ :: _ :: _ :: _ :: _ :: _, _, h => nomatch h

theorem resolver_fits {r : Reading} : (n : Node) → ∀ {q : Resolver}, ResolverOf.decode r n = .ok q →
    Fits r (.record .resolver) n
  | .mapping _ entries, _, h => by
      simp only [ResolverOf.decode, bind_eq_ok] at h
      obtain ⟨⟨seen, q⟩, hread, _⟩ := h
      exact .record (resolverMembers_fits entries hread)
  | .sequence _ items, _, h => by
      rw [ResolverOf.decode] at h
      split at h
      · rename_i hr
        subst hr
        exact .listed (resolverItems_fits items h)
      · cases h
  | .scalar s, _, h => by
      rw [ResolverOf.decode] at h
      split at h <;> cases h
  | .unreadable, _, h => by
      rw [ResolverOf.decode] at h
      cases h

theorem resolverMembers_fits {r : Reading} : (entries : List (Node × Node)) →
    ∀ {seen seen' : List ResolverMember} {q q' : Resolver}, resolverMembers r entries seen q = .ok (seen', q') →
      FitsEntries r .resolver (seen.map (Members.describe ResolverMember.want)) entries
  | [], _, _, _, _, _ => .nil
  | (key, value) :: entries, _, _, _, _, h => by
      simp only [resolverMembers, bind_eq_ok] at h
      obtain ⟨member, hkey, seen, hnote, h⟩ := h
      cases member <;> obtain ⟨a, ha, h⟩ := bind_eq_ok.mp h <;>
        refine ResolverMember.described.entry hkey hnote ?_ (resolverMembers_fits entries h)
      case source | action => exact fits_of_readString ha
      case keyFields => exact keyFields_fits value ha
      case template => exact fits_of_optionString ha
      case type => exact fits_of_optionType ha
      case sortDescending => exact fits_of_readBool ha

theorem resolverItems_fits : (items : List Node) → ∀ {q : Resolver}, resolverItems items = .ok q →
    FitsItems Record.resolver.members items
  | [], _, h | [_], _, h => nomatch h
  | [source, action], _, h => by
      simp only [resolverItems, bind_eq_ok] at h
      obtain ⟨_, hsource, _, haction, _⟩ := h
      exact .cons (fits_of_readString hsource) (.cons (fits_of_readString haction) .nil)
  | [source, action, fields], _, h => by
      simp only [resolverItems, bind_eq_ok] at h
      obtain ⟨_, hsource, _, haction, _, hfields, _⟩ := h
      exact .cons (fits_of_readString hsource) (.cons (fits_of_readString haction)
        (.cons (keyFields_fits fields hfields) .nil))
  | [source, action, fields, template], _, h => by
      simp only [resolverItems, bind_eq_ok] at h
      obtain ⟨_, hsource, _, haction, _, hfields, _, htemplate, _⟩ := h
      exact .cons (fits_of_readString hsource) (.cons (fits_of_readString haction)
        (.cons (keyFields_fits fields hfields) (.cons (fits_of_optionString htemplate) .nil)))
  | [source, action, fields, template, type], _, h => by
      simp only [resolverItems, bind_eq_ok] at h
      obtain ⟨_, hsource, _, haction, _, hfields, _, htemplate, _, htype, _⟩ := h
      exact .cons (fits_of_readString hsource) (.cons (fits_of_readString haction)
        (.cons (keyFields_fits fields hfields) (.cons (fits_of_optionString htemplate)
          (.cons (fits_of_optionType htype) .nil))))
  | [source, action, fields, template, type, descending], _, h => by
      simp only [resolverItems, bind_eq_ok] at h
      obtain ⟨_, hsource, _, haction, _, hfields, _, htemplate, _, htype, _, hdescending, _⟩ := h
      exact .cons (fits_of_readString hsource) (.cons (fits_of_readString haction)
        (.cons (keyFields_fits fields hfields) (.cons (fits_of_optionString htemplate)
          (.cons (fits_of_optionType htype) (.cons (fits_of_readBool hdescending) .nil)))))
  | _ :: _ :: _ :: _ :: _ :: _ :: _ :: _, _, h => by
      simp only [resolverItems, bind_eq_ok, reduceCtorEq, and_false, exists_false] at h

theorem keyFields_fits {r : Reading} : (n : Node) → ∀ {fields : List Field}, keyFields r n = .ok fields →
    Fits r (.option (.list .keyField)) n
  | .sequence _ items, _, h => by
      rw [keyFields] at h
      obtain ⟨entries, hentries, _⟩ := bind_eq_ok.mp h
      exact .present (.list (keyFieldEntries_fits items hentries))
  | .scalar s, _, h => by
      rw [keyFields] at h
      split at h
      · exact .absent ‹_›
      · split at h
        · exact .present (.vacantList ‹_›)
        · cases h
      · cases h
  | .mapping _ _, _, h => by
      rw [keyFields] at h
      cases h
  | .unreadable, _, h => by
      rw [keyFields] at h
      cases h

theorem keyFieldEntries_fits {r : Reading} : (items : List Node) → ∀ {entries : List KeyFieldEntry},
    keyFieldEntries items = .ok entries → ∀ n ∈ items, Fits r .keyField n
  | [], _, _ => nofun
  | n :: ns, _, h => by
      simp only [keyFieldEntries, bind_eq_ok] at h
      obtain ⟨entry, hentry, entries, hentries, _⟩ := h
      rw [List.forall_mem_cons]
      exact ⟨keyFieldEntry_fits n hentry, keyFieldEntries_fits ns hentries⟩

theorem keyFieldEntry_fits {r : Reading} : (n : Node) → ∀ {e : KeyFieldEntry}, keyFieldEntry n = .ok e →
    Fits r .keyField n
  | .scalar s, _, _ => .shorthand s
  | .unreadable, _, h => by
      rw [keyFieldEntry] at h
      obtain ⟨_, _, h⟩ := bind_eq_ok.mp h
      cases h
  | .sequence _ items, _, h => by
      rw [keyFieldEntry] at h
      obtain ⟨_, _, h⟩ := bind_eq_ok.mp h
      split at h
      · exact .keyField (.listed (fieldItems_fits items ‹_›))
      · cases h
  | .mapping _ entries, _, h => by
      rw [keyFieldEntry] at h
      obtain ⟨_, _, h⟩ := bind_eq_ok.mp h
      split at h
      · exact .keyField (.record (fieldMembers_fits entries ‹_›))
      · cases h
end

/-! ## Whole documents -/

variable {r : Reading} {n : Node}

theorem Field.fits {f : Field} (h : Field.decode r n = .ok f) : Fits r (.record .field) n := by
  obtain ⟨f₀, hread, _⟩ := bind_eq_ok.mp h
  cases n with
  | mapping tag entries =>
      obtain ⟨⟨seen, f₁⟩, hmembers, _⟩ := bind_eq_ok.mp hread
      exact .record (fieldMembers_fits entries hmembers)
  | sequence tag items =>
      rw [Field.read] at hread
      split at hread
      · rename_i hr
        subst hr
        exact .listed (fieldItems_fits items hread)
      · cases hread
  | scalar s =>
      rw [Field.read] at hread
      split at hread
      · exact .vacantRecord ‹_›
      · cases hread
  | unreadable => cases hread

theorem Operation.fits {o : Operation} (h : Operation.decode r n = .ok o) : Fits r (.record .operation) n := by
  simp only [Operation.decode, bind_eq_ok] at h
  obtain ⟨entries, hentries, ⟨seen, o'⟩, hread, _⟩ := h
  have hk : Members.Describe .operation OperationMember.want := ⟨rfl, by rintro ⟨⟩ <;> decide⟩
  refine hk.record ?_ hentries hread
  rintro ⟨⟩ value _ _ hset <;> obtain ⟨_, ha, _⟩ := bind_eq_ok.mp hset
  case name => exact fits_of_readString ha
  case type => exact fits_of_decodeType ha
  case resolver => exact fits_of_readOption (fun _ => resolver_fits value) ha

theorem DynamoSource.fits {d : DynamoSource} (h : DynamoSource.decode r n = .ok d) : Fits r (.record .dynamo) n := by
  simp only [DynamoSource.decode, bind_eq_ok] at h
  obtain ⟨entries, hentries, ⟨seen, d'⟩, hread, _⟩ := h
  have hk : Members.Describe .dynamo DynamoMember.want := ⟨rfl, by rintro ⟨⟩ <;> decide⟩
  refine hk.record ?_ hentries hread
  rintro ⟨⟩ value _ _ hset <;> obtain ⟨_, ha, _⟩ := bind_eq_ok.mp hset
  case hashKey => exact fits_of_readString ha
  case sortKey => exact fits_of_optionString ha
  case disableBackup => exact fits_of_readBool ha

theorem SqlSource.fits {s : SqlSource} (h : SqlSource.decode r n = .ok s) : Fits r (.record .sql) n := by
  simp only [SqlSource.decode, bind_eq_ok] at h
  obtain ⟨entries, hentries, ⟨seen, s'⟩, hread, _⟩ := h
  have hk : Members.Describe .sql SqlMember.want := ⟨rfl, by rintro ⟨⟩ <;> decide⟩
  refine hk.record ?_ hentries hread
  rintro ⟨⟩ value _ _ hset <;> obtain ⟨_, ha, _⟩ := bind_eq_ok.mp hset
  case primaryKey => exact fits_of_readString ha
  case database => exact fits_of_optionString ha

theorem LambdaSource.fits {l : LambdaSource} (h : LambdaSource.decode r n = .ok l) : Fits r (.record .lambda) n := by
  simp only [LambdaSource.decode, bind_eq_ok] at h
  obtain ⟨entries, hentries, ⟨seen, l'⟩, hread, _⟩ := h
  have hk : Members.Describe .lambda LambdaMember.want := ⟨rfl, by rintro ⟨⟩ <;> decide⟩
  refine hk.record ?_ hentries hread
  rintro ⟨⟩ value _ _ hset <;> obtain ⟨_, ha, _⟩ := bind_eq_ok.mp hset
  case functionName | functionArn => exact fits_of_optionString ha

theorem DataSource.fits {s : DataSource} (h : DataSource.decode r n = .ok s) : Fits r (.record .source) n := by
  simp only [DataSource.decode, bind_eq_ok] at h
  obtain ⟨entries, hentries, ⟨seen, s'⟩, hread, _⟩ := h
  have hk : Members.Describe .source DataSourceMember.want := ⟨rfl, by rintro ⟨⟩ <;> decide⟩
  refine hk.record ?_ hentries hread
  rintro ⟨⟩ value _ _ hset <;> obtain ⟨_, ha, _⟩ := bind_eq_ok.mp hset
  case dynamo => exact fits_of_readOption (fun _ => DynamoSource.fits) ha
  case sql => exact fits_of_readOption (fun _ => SqlSource.fits) ha
  case lambda => exact fits_of_readOption (fun _ => LambdaSource.fits) ha

theorem Manifest.fits {m : Manifest} (h : Manifest.decode r n = .ok m) : Fits r (.record .manifest) n := by
  simp only [Manifest.decode, bind_eq_ok] at h
  obtain ⟨entries, hentries, ⟨seen, m'⟩, hread, _⟩ := h
  have hk : Members.Describe .manifest ManifestMember.want := ⟨rfl, by rintro ⟨⟩ <;> decide⟩
  refine hk.record ?_ hentries hread
  rintro ⟨⟩ value _ _ hset <;> obtain ⟨_, ha, _⟩ := bind_eq_ok.mp hset
  case version | apiNameSuffix => exact fits_of_readString ha
  case enums => exact fits_of_decodeDict (fun _ _ => fits_of_decodeList fun _ _ => fits_of_readString) ha
  case objects => exact fits_of_decodeDict (fun _ _ => fits_of_decodeList fun _ _ => Field.fits) ha
  case queries | mutations => exact fits_of_decodeList (fun _ _ => Operation.fits) ha
  case sources => exact fits_of_decodeDict (fun _ _ => DataSource.fits) ha

end ApiManifest
