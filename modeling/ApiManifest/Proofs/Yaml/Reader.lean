import ApiManifest.Yaml.Document

/-!
# An entry among the tokens

If a key, its colon and its value follow each other among the tokens of a stream, a document that is read to its end
has an entry of that value, and the key ends with that scalar.
-/

namespace ApiManifest.Yaml

namespace Draft

/-- What can be read up to a scalar of text `t`: the scalar itself, or a collection that ends with it. -/
inductive EndsWith (t : String) : Draft → Prop where
  | scalar {anchor : Option Nat} {s : Scalar} : s.text = t → EndsWith t (.scalar anchor s)
  | sequence {anchor : Option Nat} {tag : Option Tag} {items : List Draft} : EndsWith t (.sequence anchor tag items)
  | mapping {anchor : Option Nat} {tag : Option Tag} {entries : List (Draft × Draft)} :
      EndsWith t (.mapping anchor tag entries)

/-- Somewhere in the document a key that ends with `t` has the plain value `x`. -/
inductive HasEntry (t x : String) : Draft → Prop where
  | entry {anchor : Option Nat} {tag : Option Tag} {entries : List (Draft × Draft)} {k : Draft} :
      k.EndsWith t → (k, .scalar none { text := x }) ∈ entries → HasEntry t x (.mapping anchor tag entries)
  | key {anchor : Option Nat} {tag : Option Tag} {entries : List (Draft × Draft)} {k v : Draft} :
      HasEntry t x k → (k, v) ∈ entries → HasEntry t x (.mapping anchor tag entries)
  | value {anchor : Option Nat} {tag : Option Tag} {entries : List (Draft × Draft)} {k v : Draft} :
      HasEntry t x v → (k, v) ∈ entries → HasEntry t x (.mapping anchor tag entries)
  | item {anchor : Option Nat} {tag : Option Tag} {items : List Draft} {d : Draft} :
      HasEntry t x d → d ∈ items → HasEntry t x (.sequence anchor tag items)

variable {t x : String}

theorem HasEntry.mapping {anchor anchor' : Option Nat} {tag tag' : Option Tag} {es es' : List (Draft × Draft)}
    (h : HasEntry t x (.mapping anchor tag es)) (hsub : es ⊆ es') : HasEntry t x (.mapping anchor' tag' es') := by
  cases h with
  | entry hk hmem => exact .entry hk (hsub hmem)
  | key hk hmem => exact .key hk (hsub hmem)
  | value hv hmem => exact .value hv (hsub hmem)

theorem HasEntry.sequence {anchor anchor' : Option Nat} {tag tag' : Option Tag} {ds ds' : List Draft}
    (h : HasEntry t x (.sequence anchor tag ds)) (hsub : ds ⊆ ds') : HasEntry t x (.sequence anchor' tag' ds') := by
  cases h with
  | item hd hmem => exact .item hd (hsub hmem)

end Draft

namespace Read

variable {α β : Type}

/-! ## Where the reading of the entry stands -/

section Entry

variable (t x : String) (back : List Token)

def Ahead (ts : List Token) : Prop :=
  ∃ front, ts = front ++ .scalar .plain t :: .value :: .scalar .plain x :: back ∧ .streamEnd ∉ front

/-- The key is still to come, and this token is next; it may be the key. -/
def Facing (token : Token) (ts : List Token) : Prop :=
  Ahead t x back ts ∧ ts.head? = some token

def AtColon (ts : List Token) : Prop :=
  ts = .value :: .scalar .plain x :: back

/-- Where some reading leaves off: at a fault, before the key, at the colon after reading up to the key, or after the
entry with the entry read. -/
inductive Outcome (ends has : Prop) (ts : List Token) : Prop where
  | fault : ts = [] → Outcome ends has ts
  | ahead : Ahead t x back ts → Outcome ends has ts
  | atColon : AtColon x back ts → ends → Outcome ends has ts
  | past : ts <:+ back → has → Outcome ends has ts

/-- What `m` does with tokens of which `p` holds. It never puts tokens back. -/
structure Leads (p : List Token → Prop) (m : Read α) (ends has : α → Prop) : Prop where
  shrinks : ∀ r : Reader, (m r).2.tokens <:+ r.tokens
  outcome : ∀ r : Reader, p r.tokens → Outcome t x back (ends (m r).1) (has (m r).1) (m r).2.tokens

end Entry

variable {t x : String} {back : List Token} {p : List Token → Prop} {ends has : α → Prop} {ends' has' : β → Prop}
  {token : Token}

theorem peek_bind (f : Token → Read α) (r : Reader) : (peek >>= f) r = f (r.tokens.headD .invalid) r :=
  rfl

namespace Leads

theorem mono {m : Read α} {q : List Token → Prop} (h : Leads t x back p m ends has) (hpq : ∀ ts, q ts → p ts) :
    Leads t x back q m ends has :=
  ⟨h.shrinks, fun r hr => h.outcome r (hpq _ hr)⟩

theorem facing {m : Read α} (h : Leads t x back (Ahead t x back) m ends has) :
    Leads t x back (Facing t x back token) m ends has :=
  h.mono fun _ => And.left

theorem bind {m : Read α} {f : α → Read β} (hm : Leads t x back p m ends has)
    (hahead : ∀ a, Leads t x back (Ahead t x back) (f a) ends' has')
    (hcolon : ∀ a, ends a → Leads t x back (AtColon x back) (f a) ends' has')
    (hpast : ∀ a r, has a → has' (f a r).1) : Leads t x back p (m >>= f) ends' has' := by
  refine ⟨fun r => ((hahead _).shrinks _).trans (hm.shrinks r), fun r hr => ?_⟩
  change Outcome t x back (ends' (f (m r).1 (m r).2).1) (has' (f (m r).1 (m r).2).1) (f (m r).1 (m r).2).2.tokens
  have hshrinks := (hahead (m r).1).shrinks (m r).2
  cases hm.outcome r hr with
  | fault hnil =>
      rw [hnil, List.suffix_nil] at hshrinks
      exact .fault hshrinks
  | ahead h => exact (hahead _).outcome _ h
  | atColon h hends => exact (hcolon _ hends).outcome _ h
  | past h hhas => exact .past (hshrinks.trans h) (hpast _ _ hhas)

theorem pure (a : α) : Leads t x back (Ahead t x back) (pure a) ends has :=
  ⟨fun _ => List.suffix_refl _, fun _ => .ahead⟩

theorem pure_atColon {a : α} (h : ends a) : Leads t x back (AtColon x back) (Pure.pure a) ends has :=
  ⟨fun _ => List.suffix_refl _, fun _ hr => .atColon hr h⟩

theorem fault {m : Read α} (h : ∀ r, (m r).2.tokens = []) : Leads t x back p m ends has :=
  ⟨fun r => h r ▸ List.nil_suffix, fun r _ => .fault (h r)⟩

theorem keep {m : Read β} {f : β → Read α} (hm : ∀ r, (m r).2.tokens = r.tokens)
    (h : ∀ b, Leads t x back p (f b) ends has) : Leads t x back p (m >>= f) ends has :=
  ⟨fun r => hm r ▸ (h _).shrinks _, fun r hr => (h _).outcome _ ((hm r).symm ▸ hr)⟩

theorem count {m : Read α} (h : Leads t x back p m ends has) : Leads t x back p (Read.count >>= fun _ => m) ends has :=
  keep (fun _ => rfl) fun _ => h

theorem number {f : Option Nat → Read α} (name : Option String) (h : ∀ n, Leads t x back p (f n) ends has) :
    Leads t x back p (Read.number name >>= f) ends has :=
  keep (by cases name <;> exact fun _ => rfl) h

theorem peek {f : Token → Read α} (h : ∀ token, Leads t x back (Facing t x back token) (f token) ends has) :
    Leads t x back (Ahead t x back) (Read.peek >>= f) ends has := by
  refine ⟨fun r => (h _).shrinks r, fun r hr => (h _).outcome r ⟨hr, ?_⟩⟩
  obtain ⟨front, hts, _⟩ := hr
  rw [hts]
  cases front <;> rfl

theorem skip {m : Read α} (htoken : token ≠ .scalar .plain t) (h : Leads t x back (Ahead t x back) m ends has) :
    Leads t x back (Facing t x back token) (Read.skip >>= fun _ => m) ends has := by
  refine ⟨fun r => (h.shrinks _).trans (List.drop_suffix 1 r.tokens), fun r hr => h.outcome _ ?_⟩
  change Ahead t x back (r.tokens.drop 1)
  obtain ⟨⟨front, hts, hfront⟩, hhead⟩ := hr
  rw [hts] at hhead ⊢
  cases front with
  | nil => exact absurd (Option.some.inj hhead).symm htoken
  | cons _ front => exact ⟨front, rfl, fun h => hfront (List.mem_cons_of_mem _ h)⟩

theorem skip_scalar {m : Read α} {style : Style} {text : String} (h : Leads t x back (Ahead t x back) m ends has)
    (hkey : text = t → Leads t x back (AtColon x back) m ends has) :
    Leads t x back (Facing t x back (.scalar style text)) (Read.skip >>= fun _ => m) ends has := by
  by_cases htoken : Token.scalar style text = .scalar .plain t
  · obtain ⟨rfl, rfl⟩ := Token.scalar.inj htoken
    refine ⟨fun r => (h.shrinks _).trans (List.drop_suffix 1 r.tokens), fun r hr => ?_⟩
    obtain ⟨⟨front, hts, hfront⟩, hhead⟩ := hr
    cases front with
    | nil =>
        refine (hkey rfl).outcome _ ?_
        change AtColon x back (r.tokens.drop 1)
        rw [hts]
        rfl
    | cons _ front =>
        refine h.outcome _ ⟨front, ?_, fun h => hfront (List.mem_cons_of_mem _ h)⟩
        change r.tokens.drop 1 = _
        rw [hts]
        rfl
  · exact skip htoken h

end Leads

/-! ## Nodes -/

theorem leads_emptyScalar (anchor : Option Nat) (tag : Option Tag) {ends has : Draft → Prop} :
    Leads t x back (Ahead t x back) (emptyScalar anchor tag) ends has :=
  .count (.pure _)

theorem leads_properties (fuel : Nat) (anchor : Option String) (tag : Option Tag)
    {ends has : Option String × Option Tag → Prop} :
    Leads t x back (Ahead t x back) (properties fuel anchor tag) ends has := by
  induction fuel generalizing anchor tag with
  | zero => exact .pure _
  | succ fuel ih =>
      rw [properties]
      refine .peek fun token => ?_
      split
      · split
        · exact .facing (.pure _)
        · exact .skip nofun (ih _ _)
      · split
        · exact .facing (.pure _)
        · refine .skip nofun (.keep (fun r => ?_) fun full => ?_)
          · unfold resolveTag
            split <;> rfl
          · split
            · exact ih _ _
            · exact .fault fun _ => rfl
      · exact .facing (.pure _)

theorem leads_nodeUnless {stops : List Token} {m : Read Draft} {ends has : Draft → Prop}
    (h : Leads t x back (Ahead t x back) m ends has) :
    Leads t x back (Ahead t x back) (nodeUnless stops m) ends has := by
  refine .keep (fun _ => rfl) fun token => ?_
  split
  · exact leads_emptyScalar _ _
  · exact h

theorem leads_valueUnless {stops : List Token} {m : Read Draft} {ends has : Draft → Prop}
    (h : Leads t x back (Ahead t x back) m ends has) :
    Leads t x back (Ahead t x back) (valueUnless stops m) ends has := by
  refine .peek fun token => ?_
  split
  · exact .skip nofun (leads_nodeUnless h)
  · exact .fault fun _ => rfl
  · exact .facing (leads_emptyScalar _ _)

/-- A collection that is read to its end ends with what is read last, and it has what it holds. -/
theorem leads_collection {m : Read α} (name : Option String) {make : Option Nat → α → Draft} {ends : α → Prop}
    (h : Leads t x back p m ends has) (hends : ∀ n a, (make n a).EndsWith t)
    (hhas : ∀ n a, has a → (make n a).HasEntry t x) :
    Leads t x back p
      (do
        count
        let n ← number name
        let a ← m
        pure (make n a))
      (Draft.EndsWith t) (Draft.HasEntry t x) :=
  .count (.number name fun n => h.bind (fun _ => .pure _) (fun a _ => .pure_atColon (hends n a)) fun a _ => hhas n a)

theorem node_scalar {block indentless : Bool} {fuel : Nat} {r : Reader} {rest : List Token}
    (hr : r.tokens = .scalar .plain x :: rest) :
    node block indentless (fuel + 1) r =
      (.scalar none { text := x }, { r with tokens := rest, events := r.events + 1 }) := by
  have hproperties : properties 2 none none r = ((none, none), r) := by
    rw [properties, peek_bind, hr]
    rfl
  rw [node, peek_bind, hr]
  change (properties 2 none none >>= _) r = _
  have hbind {β : Type} (f : Option String × Option Tag → Read β) :
      (properties 2 none none >>= f) r = f (none, none) r := by
    change f (properties 2 none none r).1 (properties 2 none none r).2 = _
    rw [hproperties]
  rw [hbind]
  dsimp only
  rw [peek_bind, hr]
  change (_, { r with tokens := r.tokens.drop 1, events := r.events + 1 }) = _
  rw [hr]
  rfl

theorem leads_value {stops : List Token} (hstops : stops.contains (.scalar .plain x) = false) {block indentless : Bool}
    {fuel : Nat} {ends ends' has : Draft → Prop}
    (hnode : Leads t x back (Ahead t x back) (node block indentless fuel) ends has) :
    Leads t x back (AtColon x back) (valueUnless stops (node block indentless fuel)) ends'
      (· = .scalar none { text := x }) := by
  refine ⟨(leads_valueUnless hnode).shrinks, fun r hr => ?_⟩
  have hvalue : valueUnless stops (node block indentless fuel) r =
      node block indentless fuel { r with tokens := .scalar .plain x :: back } := by
    rw [valueUnless, peek_bind, show r.tokens = _ from hr]
    change nodeUnless stops (node block indentless fuel) { r with tokens := r.tokens.drop 1 } = _
    rw [show r.tokens = _ from hr, nodeUnless, peek_bind]
    change (if stops.contains (.scalar .plain x) = true then _ else _ : Read Draft) _ = _
    rw [hstops]
    rfl
  rw [hvalue]
  cases fuel with
  | zero => exact .fault (by rw [node]; rfl)
  | succ fuel =>
      rw [node_scalar rfl]
      exact .past (List.suffix_refl _) rfl

/-! ## Collections -/

def ItemsHave (t x : String) (items : List Draft) : Prop :=
  (Draft.sequence none none items).HasEntry t x

def EntriesHave (t x : String) (entries : List (Draft × Draft)) : Prop :=
  (Draft.mapping none none entries).HasEntry t x

theorem leads_item {d : Draft} {m : Read (List Draft)} (h : Leads t x back p m (fun _ => True) (ItemsHave t x)) :
    Leads t x back p
      (do
        let ds ← m
        pure (d :: ds))
      (fun _ => True) (ItemsHave t x) :=
  h.bind (fun _ => .pure _) (fun _ _ => .pure_atColon trivial) fun _ _ hds => hds.sequence (List.subset_cons_self _ _)

theorem leads_entry {k v : Draft} {m : Read (List (Draft × Draft))}
    (h : Leads t x back p m (fun _ => True) (EntriesHave t x)) :
    Leads t x back p
      (do
        let es ← m
        pure ((k, v) :: es))
      (fun _ => True) (EntriesHave t x) :=
  h.bind (fun _ => .pure _) (fun _ _ => .pure_atColon trivial) fun _ _ hes => hes.mapping (List.subset_cons_self _ _)

theorem entriesHave_cons {k v : Draft} {es : List (Draft × Draft)}
    (h : (k.EndsWith t ∧ v = .scalar none { text := x }) ∨ k.HasEntry t x ∨ v.HasEntry t x) :
    EntriesHave t x ((k, v) :: es) := by
  rcases h with ⟨hk, rfl⟩ | hk | hv
  · exact .entry hk List.mem_cons_self
  · exact .key hk List.mem_cons_self
  · exact .value hv List.mem_cons_self

/-- A key and the value after its colon, and what follows. At a colon, what follows is a fault. -/
theorem leads_keyAndValue {m : Read Draft} {stops : List Token} {block indentless : Bool} {fuel : Nat}
    {f : Draft → Draft → Read α} (hstops : stops.contains (.scalar .plain x) = false)
    (hkey : Leads t x back (Ahead t x back) m (Draft.EndsWith t) (Draft.HasEntry t x))
    (hnode : Leads t x back (Ahead t x back) (node block indentless fuel) (Draft.EndsWith t) (Draft.HasEntry t x))
    (hrest : ∀ k v, Leads t x back (Ahead t x back) (f k v) ends has)
    (hcolon : ∀ k v, Leads t x back (AtColon x back) (f k v) ends has)
    (hhas : ∀ k v r, (k.EndsWith t ∧ v = .scalar none { text := x }) ∨ k.HasEntry t x ∨ v.HasEntry t x →
      has (f k v r).1) :
    Leads t x back (Ahead t x back)
      (do
        let k ← m
        let v ← valueUnless stops (node block indentless fuel)
        f k v)
      ends has :=
  hkey.bind
    (fun k => (leads_valueUnless hnode).bind (hrest k) (fun v _ => hcolon k v)
      fun v r hv => hhas k v r (.inr (.inr hv)))
    (fun k hk => (leads_value hstops hnode).bind (hrest k) (fun _ => False.elim)
      fun v r hv => hhas k v r (.inl ⟨hk, hv⟩))
    fun k _ hk => hhas k _ _ (.inr (.inl hk))

theorem leads_separated {first : Bool} {stop : Token} {m : Unit → Read α}
    (h : Leads t x back (Ahead t x back) (m ()) ends has) :
    Leads t x back (Ahead t x back)
      (do
        let token ← peek
        if (!first && token == .flowEntry) = true then
          let u ← skip
          m u
        else
          let token ← peek
          if (!first && token != stop) = true then
            let u ← discard giveUp
            m u
          else m ())
      ends has := by
  refine .peek fun token => ?_
  split
  · rename_i hcomma
    simp only [Bool.and_eq_true, beq_iff_eq] at hcomma
    obtain ⟨_, rfl⟩ := hcomma
    exact .skip nofun h
  · refine .facing (.peek fun token => ?_)
    split
    · have hfault : Leads t x back (Facing t x back token) (discard giveUp) (fun _ => False) (fun _ => False) :=
        .fault fun _ => rfl
      exact hfault.bind (fun _ => h) (fun _ => False.elim) fun _ _ => False.elim
    · exact .facing h

theorem blockItems_atColon (fuel : Nat) {r : Reader} (hr : AtColon x back r.tokens) :
    (blockItems fuel r).2.tokens = [] := by
  cases fuel with
  | zero => rw [blockItems]; rfl
  | succ fuel =>
      rw [blockItems, peek_bind, show r.tokens = _ from hr]
      rfl

theorem blockEntries_atColon (fuel : Nat) {r : Reader} (hr : AtColon x back r.tokens) :
    (blockEntries fuel r).2.tokens = [] := by
  cases fuel with
  | zero => rw [blockEntries]; rfl
  | succ fuel =>
      rw [blockEntries, peek_bind, show r.tokens = _ from hr]
      rfl

theorem flowItems_atColon (fuel : Nat) {r : Reader} (hr : AtColon x back r.tokens) :
    (flowItems false fuel r).2.tokens = [] := by
  cases fuel with
  | zero => rw [flowItems]; rfl
  | succ fuel =>
      obtain ⟨ts, anchors, handles, events⟩ := r
      obtain rfl : ts = _ := hr
      rw [flowItems]
      rfl

theorem flowEntries_atColon (fuel : Nat) {r : Reader} (hr : AtColon x back r.tokens) :
    (flowEntries false fuel r).2.tokens = [] := by
  cases fuel with
  | zero => rw [flowEntries]; rfl
  | succ fuel =>
      obtain ⟨ts, anchors, handles, events⟩ := r
      obtain rfl : ts = _ := hr
      rw [flowEntries]
      rfl

/-- A sequence that is indented no further than the mapping around it ends before a colon. -/
theorem indentlessItems_atColon (fuel : Nat) {r : Reader} (hr : AtColon x back r.tokens) :
    (indentlessItems fuel r).2.tokens = [] ∨ AtColon x back (indentlessItems fuel r).2.tokens := by
  cases fuel with
  | zero => exact .inl (by rw [indentlessItems]; rfl)
  | succ fuel =>
      rw [indentlessItems, peek_bind, show r.tokens = _ from hr]
      exact .inr hr

mutual
theorem leads_node (block indentless : Bool) :
    (fuel : Nat) → Leads t x back (Ahead t x back) (node block indentless fuel) (Draft.EndsWith t) (Draft.HasEntry t x)
  | 0 => by
      rw [node]
      exact .fault fun _ => rfl
  | fuel + 1 => by
      rw [node]
      refine .peek fun token => ?_
      split
      · refine .skip nofun (.keep (fun _ => rfl) fun r => ?_)
        split
        · exact .count (.pure _)
        · exact .fault fun _ => rfl
      refine .facing ((leads_properties _ _ _).bind (fun (name, tag) => .peek fun token => ?_) (fun _ => False.elim)
        fun _ _ => False.elim)
      split
      · exact .skip_scalar (.count (.number _ fun _ => .pure _)) fun htext =>
          .count (.number _ fun _ => .pure_atColon (.scalar htext))
      · exact .skip nofun (leads_collection _ (leads_flowItems true fuel) (fun _ _ => .sequence) fun _ _ h =>
          h.sequence (List.Subset.refl _))
      · exact .skip nofun (leads_collection _ (leads_flowEntries true fuel) (fun _ _ => .mapping) fun _ _ h =>
          h.mapping (List.Subset.refl _))
      · split
        · exact .skip nofun (leads_collection _ (leads_blockItems fuel) (fun _ _ => .sequence) fun _ _ h =>
            h.sequence (List.Subset.refl _))
        · exact .fault fun _ => rfl
      · split
        · exact .skip nofun (leads_collection _ (leads_blockEntries fuel) (fun _ _ => .mapping) fun _ _ h =>
            h.mapping (List.Subset.refl _))
        · exact .fault fun _ => rfl
      · exact .fault fun _ => rfl
      · split
        · exact .facing (leads_collection _ (leads_indentlessItems fuel) (fun _ _ => .sequence) fun _ _ h =>
            h.sequence (List.Subset.refl _))
        · split
          · exact .facing (.number _ fun _ => leads_emptyScalar _ _)
          · exact .fault fun _ => rfl

theorem leads_blockItems :
    (fuel : Nat) → Leads t x back (Ahead t x back) (blockItems fuel) (fun _ => True) (ItemsHave t x)
  | 0 => by
      rw [blockItems]
      exact .fault fun _ => rfl
  | fuel + 1 => by
      rw [blockItems]
      refine .peek fun token => ?_
      split
      · have hrest := leads_blockItems fuel
        refine .skip nofun ((leads_nodeUnless (leads_node true false fuel)).bind (fun d => leads_item hrest)
          (fun d _ => leads_item ⟨hrest.shrinks, fun r hr => .fault (blockItems_atColon fuel hr)⟩) fun d r hd => ?_)
        exact .item hd List.mem_cons_self
      · exact .skip nofun (.count (.pure _))
      · exact .fault fun _ => rfl

theorem leads_indentlessItems :
    (fuel : Nat) → Leads t x back (Ahead t x back) (indentlessItems fuel) (fun _ => True) (ItemsHave t x)
  | 0 => by
      rw [indentlessItems]
      exact .fault fun _ => rfl
  | fuel + 1 => by
      rw [indentlessItems]
      refine .peek fun token => ?_
      split
      · have hrest := leads_indentlessItems fuel
        refine .skip nofun ((leads_nodeUnless (leads_node true false fuel)).bind (fun d => leads_item hrest)
          (fun d _ => leads_item ⟨hrest.shrinks, fun r hr =>
            (indentlessItems_atColon fuel hr).elim .fault fun h => .atColon h trivial⟩) fun d r hd => ?_)
        exact .item hd List.mem_cons_self
      · exact .fault fun _ => rfl
      · exact .facing (.count (.pure _))

theorem leads_blockEntries :
    (fuel : Nat) → Leads t x back (Ahead t x back) (blockEntries fuel) (fun _ => True) (EntriesHave t x)
  | 0 => by
      rw [blockEntries]
      exact .fault fun _ => rfl
  | fuel + 1 => by
      rw [blockEntries]
      refine .peek fun token => ?_
      split
      · have hnode := leads_node true true fuel
        have hrest := leads_blockEntries fuel
        refine .skip nofun (leads_keyAndValue rfl (leads_nodeUnless hnode) hnode (fun _ _ => leads_entry hrest)
          (fun _ _ => leads_entry ⟨hrest.shrinks, fun r hr => .fault (blockEntries_atColon fuel hr)⟩) ?_)
        exact fun _ _ _ h => entriesHave_cons h
      · exact .skip nofun (.count (.pure _))
      · exact .fault fun _ => rfl

theorem leads_flowItems (first : Bool) :
    (fuel : Nat) → Leads t x back (Ahead t x back) (flowItems first fuel) (fun _ => True) (ItemsHave t x)
  | 0 => by
      rw [flowItems]
      exact .fault fun _ => rfl
  | fuel + 1 => by
      have hnode := leads_node false false fuel
      have hrest := leads_flowItems false fuel
      have hcolon : Leads t x back (AtColon x back) (flowItems false fuel) (fun _ => True) (ItemsHave t x) :=
        ⟨hrest.shrinks, fun r hr => .fault (flowItems_atColon fuel hr)⟩
      rw [flowItems]
      refine leads_separated (.peek fun token => ?_)
      split
      · exact .skip nofun (.count (.pure _))
      · exact .fault fun _ => rfl
      · refine .skip nofun (.count (leads_keyAndValue rfl ?_ hnode (fun _ _ => ?_) (fun _ _ => ?_) ?_))
        · refine .peek fun token => ?_
          split
          · exact .skip nofun (leads_emptyScalar _ _)
          · exact .skip nofun (leads_emptyScalar _ _)
          · exact .skip nofun (leads_emptyScalar _ _)
          · exact .facing hnode
        · exact .keep (fun _ => rfl) fun _ => .count (leads_item hrest)
        · exact .keep (fun _ => rfl) fun _ => .count (leads_item hcolon)
        · exact fun _ _ _ h => .item (entriesHave_cons h) List.mem_cons_self
      · refine .facing (hnode.bind (fun _ => leads_item hrest) (fun _ _ => leads_item hcolon) fun d r hd => ?_)
        exact .item hd List.mem_cons_self

theorem leads_flowEntries (first : Bool) :
    (fuel : Nat) → Leads t x back (Ahead t x back) (flowEntries first fuel) (fun _ => True) (EntriesHave t x)
  | 0 => by
      rw [flowEntries]
      exact .fault fun _ => rfl
  | fuel + 1 => by
      have hnode := leads_node false false fuel
      have hrest := leads_flowEntries false fuel
      have hcolon : Leads t x back (AtColon x back) (flowEntries false fuel) (fun _ => True) (EntriesHave t x) :=
        ⟨hrest.shrinks, fun r hr => .fault (flowEntries_atColon fuel hr)⟩
      rw [flowEntries]
      refine leads_separated (.peek fun token => ?_)
      split
      · exact .skip nofun (.count (.pure _))
      · exact .fault fun _ => rfl
      · refine .skip nofun (leads_keyAndValue rfl (leads_nodeUnless hnode) hnode (fun _ _ => leads_entry hrest)
          (fun _ _ => leads_entry hcolon) ?_)
        exact fun _ _ _ h => entriesHave_cons h
      · have hvalue {q : List Token → Prop} (k : Draft)
            (hq : Leads t x back q (flowEntries false fuel) (fun _ => True) (EntriesHave t x)) :
            Leads t x back q
              (do
                let token ← peek
                let value ← if (token == .invalid) = true then giveUp else emptyScalar none none
                let es ← flowEntries false fuel
                pure ((k, value) :: es))
              (fun _ => True) (EntriesHave t x) := by
          refine .keep (fun _ => rfl) fun token => ?_
          split
          · have hfault : Leads t x back q giveUp (fun _ => False) (fun _ => False) := .fault fun _ => rfl
            exact hfault.bind (fun _ => leads_entry hrest) (fun _ => False.elim) fun _ _ => False.elim
          · exact .keep (fun _ => rfl) fun _ => leads_entry hq
        refine .facing (hnode.bind (fun k => hvalue k hrest) (fun k _ => hvalue k hcolon) fun k r hk => ?_)
        rw [peek_bind]
        dsimp only
        split <;> exact entriesHave_cons (.inr (.inl hk))
end

/-! ## Documents -/

theorem Leads.discard {m : Read α} (h : Leads t x back p m (fun _ => False) (fun _ => False)) :
    Leads t x back p (discard m) (fun _ => False) (fun _ => False) :=
  ⟨h.shrinks, h.outcome⟩

theorem leads_directives (versioned : Bool) (fuel : Nat) :
    Leads t x back (Ahead t x back) (directives versioned fuel) (fun _ => False) (fun _ => False) := by
  induction fuel generalizing versioned with
  | zero => exact .fault fun _ => rfl
  | succ fuel ih =>
      have hfault {q : List Token → Prop} :
          Leads t x back q (Functor.discard giveUp) (fun _ => False) (fun _ => False) := .fault fun _ => rfl
      have hmore (versioned : Bool) : Leads t x back (Ahead t x back)
          (do
            Functor.discard (directives versioned fuel)
            Pure.pure true)
          (fun _ => False) (fun _ => False) :=
        (ih versioned).discard.bind (fun _ => .pure _) (fun _ => False.elim) fun _ _ => False.elim
      rw [directives]
      refine .peek fun token => ?_
      split
      · split
        · exact hfault.bind (fun _ => hmore true) (fun _ => False.elim) fun _ _ => False.elim
        · exact .skip nofun (hmore true)
      · refine .keep (fun _ => rfl) fun r => ?_
        split
        · exact hfault.bind (fun _ => .keep (fun _ => rfl) fun _ => hmore _) (fun _ => False.elim) fun _ _ => False.elim
        · exact .skip nofun (.keep (fun _ => rfl) fun _ => hmore _)
      · exact .facing (.pure _)

theorem leads_firstDocument :
    Leads t x back (Ahead t x back) firstDocument (Draft.EndsWith t) (Draft.HasEntry t x) := by
  refine .keep (fun _ => rfl) fun r => .peek fun token => ?_
  split
  · exact .facing (leads_emptyScalar _ _)
  refine .facing ((leads_directives false _).bind (fun directed => .keep (fun _ => rfl) fun _ => ?_)
    (fun _ => False.elim) fun _ _ => False.elim)
  have hmark (root : Draft) : Leads t x back (Ahead t x back)
      (do
        if (← Read.peek) == .documentEnd then Read.skip
        return root)
      (Draft.EndsWith t) (Draft.HasEntry t x) := by
    refine .peek fun token => ?_
    split
    · rename_i hend
      obtain rfl := beq_iff_eq.mp hend
      exact .skip nofun (.pure _)
    · exact .facing (.pure _)
  refine Leads.bind ?_ hmark (fun (root : Draft) (hroot : root.EndsWith t) => ⟨(hmark root).shrinks, fun r hr => ?_⟩)
    fun root r (hroot : root.HasEntry t x) => ?_
  · refine .peek fun token => ?_
    split
    · rename_i hstart
      obtain rfl := beq_iff_eq.mp hstart
      refine .skip nofun (.peek fun token => .facing ?_)
      split
      · exact leads_emptyScalar _ _
      · exact leads_emptyScalar _ _
      · exact leads_emptyScalar _ _
      · exact leads_emptyScalar _ _
      · exact leads_emptyScalar _ _
      · exact leads_node true false _
    · split
      · exact .fault fun _ => rfl
      · exact .facing (leads_node true false _)
  · obtain ⟨ts, anchors, handles, events⟩ := r
    obtain rfl : ts = _ := hr
    exact .atColon rfl hroot
  · rw [peek_bind]
    dsimp only
    split <;> exact hroot

/-- A document that is read to the end of its stream has the entry. -/
theorem hasEntry_firstDocument {r : Reader} (hr : Ahead t x back r.tokens)
    (hend : ((firstDocument r).2.tokens.dropWhile (· == .documentEnd)).head? = some .streamEnd) :
    (firstDocument r).1.HasEntry t x := by
  cases leads_firstDocument.outcome r hr with
  | fault h =>
      rw [h] at hend
      simp at hend
  | ahead h =>
      obtain ⟨front, hts, hfront⟩ := h
      rw [hts, List.dropWhile_append] at hend
      split at hend
      · simp at hend
      · rename_i hmore
        obtain ⟨token, rest, hcons⟩ := List.exists_cons_of_ne_nil (by simpa only [List.isEmpty_iff] using hmore)
        rw [hcons, List.cons_append, List.head?_cons, Option.some.injEq] at hend
        have hmem := (List.dropWhile_suffix (· == Token.documentEnd)).subset (hcons ▸ List.mem_cons_self)
        exact absurd (hend ▸ hmem) hfront
  | atColon h _ =>
      rw [show _ = _ from h] at hend
      simp at hend
  | past _ h => exact h

end Read

end ApiManifest.Yaml
