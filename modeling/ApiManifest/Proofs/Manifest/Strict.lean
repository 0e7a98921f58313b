import ApiManifest.Proofs.Manifest.Decoding
import ApiManifest.Proofs.Manifest.Grammar

/-!
# Nothing is ignored

Which parts of a value are read, and as what, follows from what is wanted at its top. In a value that is accepted
every part is read, every key of a record names one of its members, no two name the same, and no list of members
is longer than the record.
-/

namespace ApiManifest

open Yaml (Node)

namespace Json

inductive Child : Json → Json → Prop where
  | item {items : List Json} {x : Json} (h : x ∈ items) : Child (.array items) x
  | value {members : List (String × Json)} {e : String × Json} (h : e ∈ members) : Child (.object members) e.2

/-- A value read as one thing has a part that is read as another; options and key fields are read as what they hold. -/
inductive Step : Want → Json → Want → Json → Prop where
  | option (w : Want) (v : Json) : Step (.option w) v w v
  | keyField (v : Json) : Step .keyField v (.record .field) v
  | element {items : List Json} {x : Json} (h : x ∈ items) : Step .type (.array items) .string x
  | item {w : Want} {items : List Json} {x : Json} (h : x ∈ items) : Step (.list w) (.array items) w x
  | value {w : Want} {members : List (String × Json)} {e : String × Json} (h : e ∈ members) :
      Step (.dict w) (.object members) w e.2
  | member {k : Record} {members : List (String × Json)} {e : String × Json} {m : Member} (h : e ∈ members)
      (hm : m ∈ k.members) (hname : e.1 ∈ m.names) : Step (.record k) (.object members) m.want e.2
  | position {k : Record} {items : List Json} {x : Json} {m : Member} {i : Nat} (h : items[i]? = some x)
      (hm : k.members[i]? = some m) : Step (.record k) (.array items) m.want x

/-- In a value that is read as one thing another is reached, which is read as another. -/
inductive Reaches (w : Want) (v : Json) : Want → Json → Prop where
  | refl : Reaches w v w v
  | step {w' w'' : Want} {u x : Json} (h : Reaches w v w' u) (hstep : Step w' u w'' x) : Reaches w v w'' x

theorem Reaches.trans {w w' w'' : Want} {v u x : Json} (h : Reaches w v w' u) (h' : Reaches w' u w'' x) :
    Reaches w v w'' x := by
  induction h' with
  | refl => exact h
  | step _ hstep ih => exact ih.step hstep

end Json

open Json (Child Step Reaches)

/-- Every key is a name of a member, and no two keys name the same one; a list has no more items than there are
members. -/
def Record.IsStrict (k : Record) : Json → Prop
  | .object members =>
    (∀ e ∈ members, ∃ m ∈ k.members, e.1 ∈ m.names) ∧
      members.Pairwise fun e e' => ∀ m ∈ k.members, ¬ (e.1 ∈ m.names ∧ e'.1 ∈ m.names)
  | .array items => items.length ≤ k.members.length
  | _ => True

theorem Record.eq_of_name {k : Record} : ∀ m ∈ k.members, ∀ m' ∈ k.members, ∀ name ∈ m.names, name ∈ m'.names →
    m = m' := by
  cases k <;> decide

/-! ## Fitting values -/

theorem ofItems_eq_map (items : List Json) : Node.ofItems items = items.map Node.ofJson := by
  induction items with
  | nil => rfl
  | cons x xs ih => rw [Node.ofItems, ih, List.map_cons]

theorem ofMembers_eq_map (members : List (String × Json)) :
    Node.ofMembers members = members.map fun e => (Node.string e.1, Node.ofJson e.2) := by
  induction members with
  | nil => rfl
  | cons e es ih => rw [Node.ofMembers, ih, List.map_cons]

theorem name_of_string {k : Record} {r : Reading} {key : String} {m : Member} (h : Names k r (Node.string key) m) :
    m ∈ k.members ∧ key ∈ m.names := by
  cases h with
  | name hm hs => exact ⟨hm, hs⟩
  | number hs hm => cases hs

theorem FitsEntries.of_mem {r : Reading} {k : Record} {seen : List Member} {entries : List (Node × Node)}
    (h : FitsEntries r k seen entries) {e : Node × Node} (he : e ∈ entries) :
    ∃ m, Names k r e.1 m ∧ m ∉ seen ∧ Fits r m.want e.2 := by
  induction entries generalizing seen with
  | nil => cases he
  | cons e' es ih =>
      cases h with
      | cons hkey hnew hvalue hrest =>
          rcases List.mem_cons.mp he with rfl | he
          · exact ⟨_, hkey, hnew, hvalue⟩
          · obtain ⟨m, hm, hseen, hfits⟩ := ih hrest he
            exact ⟨m, hm, fun hmem => hseen (List.mem_cons_of_mem _ hmem), hfits⟩

theorem FitsItems.of_getElem? {ms : List Member} {items : List Node} (h : FitsItems ms items) {i : Nat} {n : Node}
    {m : Member} (hn : items[i]? = some n) (hm : ms[i]? = some m) : Fits .entry m.want n := by
  induction items generalizing ms i with
  | nil => cases hn
  | cons n' ns ih =>
      cases h with
      | cons hitem hrest =>
          cases i with
          | zero =>
              cases hn
              cases hm
              exact hitem
          | succ i => exact ih hrest hn hm

theorem FitsItems.length_le {ms : List Member} {items : List Node} (h : FitsItems ms items) :
    items.length ≤ ms.length := by
  induction items generalizing ms with
  | nil => exact Nat.zero_le _
  | cons n ns ih =>
      cases h with
      | cons hitem hrest => exact Nat.succ_le_succ (ih hrest)

namespace Fits

variable {r : Reading} {w w' : Want} {k : Record} {v u x : Json}

theorem entries_of_object {members : List (String × Json)} (h : Fits r (.record k) (Node.ofJson (.object members))) :
    FitsEntries r k [] (members.map fun e => (Node.string e.1, Node.ofJson e.2)) := by
  rw [Node.ofJson, ofMembers_eq_map] at h
  cases h with
  | record h => exact h

theorem items_of_array {items : List Json} (h : Fits r (.record k) (Node.ofJson (.array items))) :
    FitsItems k.members (items.map Node.ofJson) := by
  rw [Node.ofJson, ofItems_eq_map] at h
  cases h with
  | listed h => exact h

theorem isStrict (h : Fits r (.record k) (Node.ofJson v)) : k.IsStrict v := by
  cases v with
  | object members =>
      have hentries := h.entries_of_object
      constructor
      · intro e he
        obtain ⟨m, hm, _⟩ := hentries.of_mem (List.mem_map_of_mem he)
        exact ⟨m, name_of_string hm⟩
      · generalize ([] : List Member) = seen at hentries
        clear h
        induction members generalizing seen with
        | nil => exact .nil
        | cons e es ih =>
            cases hentries with
            | cons hkey hnew hvalue hrest =>
                refine .cons (fun e' he' m hm hnames => ?_) (ih _ hrest)
                -- the member that the first key names is not named again
                obtain ⟨m', hm', hseen, _⟩ := hrest.of_mem (List.mem_map_of_mem he')
                have hfirst := k.eq_of_name _ hm _ (name_of_string hkey).1 _ hnames.1 (name_of_string hkey).2
                have hlater := k.eq_of_name _ hm _ (name_of_string hm').1 _ hnames.2 (name_of_string hm').2
                exact hseen (hlater ▸ hfirst ▸ List.mem_cons_self)
  | array items =>
      have hlength := h.items_of_array.length_le
      rwa [List.length_map] at hlength
  | _ => trivial

theorem step (h : Fits r w (Node.ofJson v)) (hstep : Step w v w' x) :
    (∃ r', Fits r' w' (Node.ofJson x)) ∨ ∃ s, Node.ofJson x = .scalar s := by
  cases hstep with
  | option =>
      generalize hn : Node.ofJson v = n at h
      cases h with
      | absent hs => exact .inr ⟨_, rfl⟩
      | present h => exact .inl ⟨r, h⟩
  | keyField =>
      generalize hn : Node.ofJson v = n at h
      cases h with
      | shorthand s => exact .inr ⟨s, rfl⟩
      | keyField h => exact .inl ⟨.entry, h⟩
  | element hx =>
      rename_i items
      rw [Node.ofJson, ofItems_eq_map] at h
      generalize hns : items.map Node.ofJson = ns at h
      cases h with
      | listType tag s =>
          have hs := hns ▸ List.mem_map_of_mem hx
          exact .inr ⟨s, List.mem_singleton.mp hs⟩
  | item hx =>
      rw [Node.ofJson, ofItems_eq_map] at h
      cases h with
      | list h => exact .inl ⟨r, h _ (List.mem_map_of_mem hx)⟩
  | value he =>
      rw [Node.ofJson, ofMembers_eq_map] at h
      cases h with
      | dict _ h => exact .inl ⟨r, h _ (List.mem_map_of_mem he)⟩
  | member he hm hname =>
      obtain ⟨m', hm', _, hfits⟩ := h.entries_of_object.of_mem (List.mem_map_of_mem he)
      obtain ⟨hmem, hname'⟩ := name_of_string hm'
      rw [Record.eq_of_name _ hm _ hmem _ hname hname']
      exact .inl ⟨r, hfits⟩
  | position hx hm =>
      refine .inl ⟨.entry, h.items_of_array.of_getElem? ?_ hm⟩
      rw [List.getElem?_map, hx, Option.map_some]

theorem reaches (h : Fits r w (Node.ofJson v)) (hreach : Reaches w v w' u) :
    (∃ r', Fits r' w' (Node.ofJson u)) ∨ ∃ s, Node.ofJson u = .scalar s := by
  induction hreach with
  | refl => exact .inl ⟨r, h⟩
  | step _ hstep ih =>
      rcases ih with ⟨r', hfits⟩ | ⟨s, hs⟩
      · exact hfits.step hstep
      · -- a value without parts is read again at most
        cases hstep with
        | option | keyField => exact .inr ⟨s, hs⟩
        | element | item | value | member | position => cases hs

theorem isStrict_of_scalar {s : Yaml.Scalar} (h : Node.ofJson u = .scalar s) : k.IsStrict u := by
  cases u with
  | object members => cases h
  | array items => cases h
  | _ => trivial

theorem child_of_record (h : Fits r (.record k) (Node.ofJson v)) (hchild : Child v x) :
    ∃ w', Reaches (.record k) v w' x := by
  cases hchild with
  | value he =>
      obtain ⟨m, hm, _⟩ := h.entries_of_object.of_mem (List.mem_map_of_mem he)
      obtain ⟨hmem, hname⟩ := name_of_string hm
      exact ⟨_, Reaches.refl.step (.member he hmem hname)⟩
  | item hx =>
      obtain ⟨i, hi⟩ := List.mem_iff_getElem?.mp hx
      have hlength := h.items_of_array.length_le
      rw [List.length_map] at hlength
      have hlt := Nat.lt_of_lt_of_le (List.getElem?_eq_some_iff.mp hi).1 hlength
      exact ⟨_, Reaches.refl.step (.position hi (List.getElem?_eq_getElem hlt))⟩

theorem child (h : Fits r w (Node.ofJson v)) (hchild : Child v x) : ∃ w', Reaches w v w' x := by
  induction w generalizing r with
  | string | flag =>
      cases hchild <;> cases h
  | type =>
      cases hchild with
      | item hx => exact ⟨_, Reaches.refl.step (.element hx)⟩
      | value => cases h
  | record k => exact h.child_of_record hchild
  | keyField =>
      generalize hn : Node.ofJson v = n at h
      cases h with
      | shorthand s => cases hchild <;> cases hn
      | keyField h =>
          obtain ⟨w', hreach⟩ := (hn ▸ h).child_of_record hchild
          exact ⟨w', (Reaches.refl.step (.keyField v)).trans hreach⟩
  | option w ih =>
      generalize hn : Node.ofJson v = n at h
      cases h with
      | absent hs => cases hchild <;> cases hn
      | present h =>
          obtain ⟨w', hreach⟩ := ih (hn ▸ h)
          exact ⟨w', (Reaches.refl.step (.option w v)).trans hreach⟩
  | list w =>
      cases hchild with
      | item hx => exact ⟨_, Reaches.refl.step (.item hx)⟩
      | value => cases h
  | dict w =>
      cases hchild with
      | item => cases h
      | value he => exact ⟨_, Reaches.refl.step (.value he)⟩

end Fits

/-! ## Strict decoding -/

/-- A record is read from the value strictly: a result is as asked for, and it comes from a value in which every
record that is reached is strict and every part is reached; any other value gives an error. -/
structure ReadStrictly {α : Type} (k : Record) (v : Json) (Result : α → Prop) (read : Except DecodeError α) : Prop where
  result : ∀ a, read = .ok a → Result a
  strict : ∀ a, read = .ok a → ∀ k' u, Reaches (.record k) v (.record k') u → k'.IsStrict u
  whole : ∀ a, read = .ok a → ∀ w u x, Reaches (.record k) v w u → Child u x → ∃ w', Reaches (.record k) v w' x
  rejected : ∀ k' u, Reaches (.record k) v (.record k') u → ¬ k'.IsStrict u → ∃ e, read = .error e

theorem ReadStrictly.of_fits {α : Type} {k : Record} {v : Json} {Result : α → Prop} {r : Reading}
    {read : Except DecodeError α} (hresult : ∀ a, read = .ok a → Result a)
    (hfits : ∀ a, read = .ok a → Fits r (.record k) (Node.ofJson v)) : ReadStrictly k v Result read := by
  have hstrict : ∀ a, read = .ok a → ∀ k' u, Reaches (.record k) v (.record k') u → k'.IsStrict u := by
    intro a ha k' u hreach
    rcases (hfits a ha).reaches hreach with ⟨r', h⟩ | ⟨s, hs⟩
    · exact h.isStrict
    · exact Fits.isStrict_of_scalar hs
  refine ⟨hresult, hstrict, ?_, ?_⟩
  · intro a ha w u x hreach hchild
    rcases (hfits a ha).reaches hreach with ⟨r', h⟩ | ⟨s, hs⟩
    · obtain ⟨w', hstep⟩ := h.child hchild
      exact ⟨w', hreach.trans hstep⟩
    · cases hchild <;> cases hs
  · intro k' u hreach hloose
    cases hread : read with
    | ok a => exact absurd (hstrict a hread k' u hreach) hloose
    | error e => exact ⟨e, rfl⟩

/-- Whatever is read from a value is read strictly, and the resolvers in the result, at every depth, have neither a
binding nor a stage from outside. -/
theorem decode_strict (v : Json) :
    ReadStrictly .manifest v Manifest.Sound (Manifest.decode .value (Node.ofJson v)) ∧
      ReadStrictly .operation v Operation.Sound (Operation.decode .value (Node.ofJson v)) ∧
      ReadStrictly .field v Field.Sound (Field.decode .value (Node.ofJson v)) ∧
      ReadStrictly .resolver v ResolverOf.Sound (ResolverOf.decode .value (Node.ofJson v)) ∧
      ReadStrictly .source v (fun _ => True) (DataSource.decode .value (Node.ofJson v)) :=
  ⟨.of_fits (fun _ => Manifest.decode_sound) fun _ => Manifest.fits,
    .of_fits (fun _ => Operation.decode_sound) fun _ => Operation.fits,
    .of_fits (fun _ => Field.decode_sound) fun _ => Field.fits,
    .of_fits (fun _ => decode_sound _) fun _ => resolver_fits _,
    .of_fits (fun _ _ => trivial) fun _ => DataSource.fits⟩

example : Record.field.members.length = 4 ∧ Record.resolver.members.length = 6 := ⟨rfl, rfl⟩

/-- A field whose resolver has a key field with a resolver of its own, which gives one thing more. -/
def petWithOwner (key : String) (value : Json) : Json :=
  let owner : Json := .object [("action", "get"), (key, value)]
  .object [("name", "pet"), ("resolver", .object [("action", "get"),
    ("keyFields", .array [.object [("name", "owner"), ("resolver", owner)], .array ["id", "ID!"], "kind"])])]

theorem petWithOwner_reaches (key : String) (value : Json) :
    Reaches (.record .field) (petWithOwner key value) (.record .resolver) (.object [("action", "get"), (key, value)]) := by
  have hresolver := Reaches.refl (w := .record .field) (v := petWithOwner key value)
    |>.step (.member (m := Members.describe FieldMember.want .resolver) (.tail _ (.head _)) (by decide) (.head _))
    |>.step (.option _ _)
  have hkeyField := hresolver
    |>.step (.member (m := Members.describe ResolverMember.want .keyFields) (.tail _ (.head _)) (by decide) (.head _))
    |>.step (.option _ _) |>.step (.item (.head _)) |>.step (.keyField _)
  exact hkeyField
    |>.step (.member (m := Members.describe FieldMember.want .resolver) (.tail _ (.head _)) (by decide) (.head _))
    |>.step (.option _ _)

/-- With a template there the field is read, and the resolver there is strict; a binding there is refused. -/
theorem petWithOwner_strict :
    (∃ f, Field.decode .value (Node.ofJson (petWithOwner "template" "get")) = .ok f ∧ f.Sound ∧
      Record.resolver.IsStrict (.object [("action", "get"), ("template", "get")])) ∧
    ∃ e, Field.decode .value (Node.ofJson (petWithOwner "binding" .null)) = .error e := by
  have check : (Field.decode .value (Node.ofJson (petWithOwner "template" "get"))).toOption.map (·.name) = some "pet" := by
    decide +kernel
  obtain ⟨f, hf, _⟩ := toOption_map_eq_some.mp check
  obtain ⟨-, -, hread, -, -⟩ := decode_strict (petWithOwner "template" "get")
  obtain ⟨-, -, hrefused, -, -⟩ := decode_strict (petWithOwner "binding" .null)
  refine ⟨⟨f, hf, hread.result f hf, hread.strict f hf _ _ (petWithOwner_reaches _ _)⟩,
    hrefused.rejected _ _ (petWithOwner_reaches _ _) ?_⟩
  intro hstrict
  obtain ⟨m, hm, hname⟩ := hstrict.1 ("binding", .null) (by simp)
  exact absurd hname (by revert m; decide)

end ApiManifest
