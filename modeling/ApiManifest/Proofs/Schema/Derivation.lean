import ApiManifest.Proofs.Schema.Discovery
import ApiManifest.Proofs.Schema.FirstUses

/-!
# Derived types and diagnostics

The schema of a manifest holds the filters, connections and inputs that its bound resolvers call for,
each at the first resolver that does, and the diagnostics of these calls in the order of the resolvers.
The closed form is `Schema.derived`; meeting the requests one after another comes to the same.
-/

namespace ApiManifest

/-! ## What a resolver calls for -/

/-- The type of which a bound resolver returns a list. -/
def listedType? (x : Location × Resolver) : Option String :=
  x.2.binding.bind fun b => if b.action = .list then some b.returnType.name else none

def pagedType? (x : Location × Resolver) : Option String :=
  x.2.binding.bind fun b => if b.action = .list && !b.isNested then some b.returnType.name else none

def inputCall? (x : Location × Resolver) : Option (String × Action) :=
  match x.1 with
  | .mutation _ =>
    x.2.binding.bind fun b =>
      if b.action = .insert || b.action = .update then some (b.returnType.name, b.action) else none
  | _ => none

namespace Schema

/-! ## The closed form -/

def filtersOf (s : Schema) (rs : List (Location × Resolver)) : Dict ObjectType :=
  firstUses listedType? (fun t => (s.object? t).map fun o => (filterName t, o.filter)) rs

def connectionsOf (s : Schema) (rs : List (Location × Resolver)) : List String :=
  firstUses pagedType? (fun t => (s.object? t).map fun _ => t) rs

def inputOf (s : Schema) (call : String × Action) : Option (String × ObjectType) :=
  (s.object? call.1).bind fun o =>
    (inputName? call.1 call.2).map fun name =>
      (name, { name, fields := o.fields.filterMap (Field.inputField? call.2) })

def inputsOf (s : Schema) (rs : List (Location × Resolver)) : Dict ObjectType :=
  firstUses inputCall? s.inputOf rs

/-- The typed fields of an object whose types are neither scalars nor declared. -/
def strayFields (s : Schema) (o : ObjectType) : List SchemaError :=
  o.fields.filterMap fun f =>
    f.type.bind fun t =>
      if t.name ∈ awsScalars ++ coreScalars ++ s.objects.names ++ s.enums.names then none
      else some (.unknownFieldType o.name f.name t.name)

/-- What is wrong with the call of a resolver, the ones before it being known: a type that is not
declared each time, stray fields at the first list of their object only. -/
def diagnosticsAt (s : Schema) (earlier : List (Location × Resolver)) (x : Location × Resolver) :
    List SchemaError :=
  match listedType? x, inputCall? x with
  | some t, _ =>
    match s.object? t with
    | none => [.unknownType t .filter]
    | some o => if t ∈ earlier.filterMap listedType? then [] else s.strayFields o
  | none, some (t, _) => if (s.object? t).isNone then [.unknownType t .input] else []
  | none, none => []

def diagnosticsAfter (s : Schema) (earlier : List (Location × Resolver)) :
    List (Location × Resolver) → List SchemaError
  | [] => []
  | x :: xs => s.diagnosticsAt earlier x ++ s.diagnosticsAfter (earlier ++ [x]) xs

def derived (s : Schema) (rs : List (Location × Resolver)) : Schema :=
  { s with
    filters := s.filtersOf rs
    inputs := s.inputsOf rs
    connections := s.connectionsOf rs
    errors := s.errors ++ s.diagnosticsAfter [] rs }

/-! ## One request -/

def Named (s : Schema) : Prop :=
  ∀ t o, s.object? t = some o → o.name = t

def request? (x : Location × Resolver) : Option Request :=
  x.2.binding.map fun b =>
    let inMutation := match x.1 with
      | .mutation _ => true
      | _ => false
    { action := b.action, base := b.returnType.name, nested := b.isNested, inMutation }

theorem requests_eq (s : Schema) : s.requests = s.resolvers.filterMap request? := rfl

theorem ofType_eq_other {name : String} :
    ScalarClass.ofType name = .other ↔ name ∉ awsScalars ++ coreScalars := by
  simp only [ScalarClass.ofType, List.contains_eq_mem, List.mem_append]
  by_cases ha : name ∈ awsScalars <;> by_cases hc : name ∈ coreScalars <;> simp [ha, hc]

theorem isKnownType_iff {s : Schema} {name : String} :
    s.isKnownType name = true ↔ name ∈ s.objects.names ++ s.enums.names := by
  rw [isKnownType, Bool.or_eq_true, Dict.has_iff, Dict.has_iff, List.mem_append]

theorem misspelt_eq (s : Schema) (o : ObjectType) : s.misspelt o = s.strayFields o := by
  simp only [misspelt, strayFields, ObjectType.unfilterable, ofType_eq_other,
    List.append_assoc (awsScalars ++ coreScalars), List.mem_append (s := awsScalars ++ coreScalars),
    ← isKnownType_iff]
  induction o.fields with
  | nil => rfl
  | cons f fs ih =>
      cases hf : f.type with
      | none => simpa [hf] using ih
      | some t =>
          have hn : f.typeName = t.name := by simp [Field.typeName, hf]
          rw [List.filter_cons, List.filterMap_cons]
          simp only [hf, Option.any_some, Option.bind_some, decide_eq_true_eq]
          by_cases hs : t.name ∈ awsScalars ++ coreScalars
          · simpa only [hs, not_true_eq_false, ↓reduceIte, true_or] using ih
          · simp only [hs, not_false_eq_true, ↓reduceIte, false_or, List.filter_cons, hn]
            cases hk : s.isKnownType t.name with
            | true => simpa only [Bool.not_true, Bool.false_eq_true, ↓reduceIte] using ih
            | false => simpa only [Bool.not_false, Bool.false_eq_true, ↓reduceIte, List.map_cons, hn,
                List.cons.injEq, true_and] using ih

/-! ## One addition -/

theorem filterName_inj {t t' : String} (h : filterName t = filterName t') : t = t' := by
  have h := congrArg String.toList h
  simp only [filterName, String.toList_append] at h
  exact String.toList_inj.mp (List.append_cancel_right h)

theorem inputName?_inj {t t' : String} {a a' : Action} {name : String}
    (h : inputName? t a = some name) (h' : inputName? t' a' = some name) : t = t' ∧ a = a' := by
  have key : ∀ (p : String) (u u' : String), p ++ u ++ "Input" = p ++ u' ++ "Input" → u = u' := by
    intro p u u' he
    have he := congrArg String.toList he
    simp only [String.toList_append, List.append_assoc] at he
    exact String.toList_inj.mp (List.append_cancel_right (List.append_cancel_left he))
  have hne : ∀ u u' : String, "Create" ++ u ++ "Input" ≠ "Update" ++ u' ++ "Input" := by
    intro u u' he
    have he := congrArg (fun s => s.toList.head?) he
    simp at he
  cases a <;> simp only [inputName?, Option.some.injEq, reduceCtorEq] at h <;>
    cases a' <;> simp only [inputName?, Option.some.injEq, reduceCtorEq] at h' <;> subst h
  · exact ⟨key _ _ _ h'.symm, rfl⟩
  · exact absurd h'.symm (hne _ _)
  · exact absurd h' (hne _ _)
  · exact ⟨key _ _ _ h'.symm, rfl⟩

variable {s u : Schema} {earlier : List (Location × Resolver)} {x : Location × Resolver}

theorem has_filtersOf {t : String} {o : ObjectType} (ho : s.object? t = some o) :
    (s.filtersOf earlier).has (filterName t) = true ↔ t ∈ earlier.filterMap listedType? := by
  simp only [Dict.has_iff, Dict.names, List.mem_map, filtersOf, mem_firstUses, List.mem_filterMap]
  constructor
  · rintro ⟨e, ⟨x, hx, t', ht', he⟩, hn⟩
    obtain ⟨o', _, rfl⟩ := Option.map_eq_some_iff.mp he
    exact ⟨x, hx, filterName_inj hn ▸ ht'⟩
  · rintro ⟨x, hx, ht⟩
    exact ⟨(filterName t, o.filter), ⟨x, hx, t, ht, by simp [ho]⟩, rfl⟩

theorem mem_connectionsOf {t : String} {o : ObjectType} (ho : s.object? t = some o) :
    t ∈ s.connectionsOf earlier ↔ t ∈ earlier.filterMap pagedType? := by
  simp only [connectionsOf, mem_firstUses, List.mem_filterMap]
  constructor
  · rintro ⟨x, hx, t', ht', he⟩
    obtain ⟨o', _, rfl⟩ := Option.map_eq_some_iff.mp he
    exact ⟨x, hx, ht'⟩
  · rintro ⟨x, hx, ht⟩
    exact ⟨x, hx, t, ht, by simp [ho]⟩

theorem inputOf_name {c : String × Action} {e : String × ObjectType} (h : s.inputOf c = some e) :
    inputName? c.1 c.2 = some e.1 ∧ e.2.name = e.1 := by
  simp only [inputOf, Option.bind_eq_some_iff, Option.map_eq_some_iff] at h
  obtain ⟨o, _, name, hn, rfl⟩ := h
  exact ⟨hn, rfl⟩

theorem has_inputsOf {c : String × Action} {e : String × ObjectType} (he : s.inputOf c = some e) :
    (s.inputsOf earlier).has e.1 = true ↔ c ∈ earlier.filterMap inputCall? := by
  simp only [Dict.has_iff, Dict.names, List.mem_map, inputsOf, mem_firstUses, List.mem_filterMap]
  constructor
  · rintro ⟨e', ⟨x, hx, c', hc', he'⟩, hn⟩
    have h := inputName?_inj (inputOf_name he').1 (hn ▸ (inputOf_name he).1)
    exact ⟨x, hx, Prod.ext h.1 h.2 ▸ hc'⟩
  · rintro ⟨x, hx, hc⟩
    exact ⟨e, ⟨x, hx, c, hc, he⟩, rfl⟩

theorem nodup_names_filtersOf (s : Schema) (rs : List (Location × Resolver)) : (s.filtersOf rs).names.Nodup := by
  apply nodup_map_firstUses
  intro t t' e e' ht ht' hn
  obtain ⟨o, _, rfl⟩ := Option.map_eq_some_iff.mp ht
  obtain ⟨o', _, rfl⟩ := Option.map_eq_some_iff.mp ht'
  exact filterName_inj hn

theorem nodup_connectionsOf (s : Schema) (rs : List (Location × Resolver)) : (s.connectionsOf rs).Nodup := by
  rw [← List.map_id (s.connectionsOf rs)]
  apply nodup_map_firstUses
  intro t t' e e' ht ht' hn
  obtain ⟨o, _, rfl⟩ := Option.map_eq_some_iff.mp ht
  obtain ⟨o', _, rfl⟩ := Option.map_eq_some_iff.mp ht'
  exact hn

theorem nodup_names_inputsOf (s : Schema) (rs : List (Location × Resolver)) : (s.inputsOf rs).names.Nodup := by
  apply nodup_map_firstUses
  intro c c' e e' hc hc' hn
  have h := inputName?_inj (inputOf_name hc).1 (hn ▸ (inputOf_name hc').1)
  exact Prod.ext h.1 h.2

theorem addFilter_filtersOf {t : String} {o : ObjectType} (hu : u.filters = s.filtersOf earlier)
    (hx : listedType? x = some t) (ho : s.object? t = some o) (hn : o.name = t) :
    u.addFilter o.filter = (!decide (t ∈ earlier.filterMap listedType?),
      { u with filters := s.filtersOf (earlier ++ [x]) }) := by
  have hname : o.filter.name = filterName t := by rw [ObjectType.filter, hn]
  unfold addFilter
  rw [hname]
  by_cases ht : t ∈ earlier.filterMap listedType?
  · have hnew : s.filtersOf (earlier ++ [x]) = s.filtersOf earlier :=
      firstUses_snoc_old hx (Or.inl ht)
    have hhas : u.filters.has (filterName t) = true := hu ▸ (has_filtersOf ho).mpr ht
    simp [hhas, hnew, ht, ← hu]
  · have hhas : (s.filtersOf earlier).has (filterName t) = false :=
      Bool.eq_false_iff.mpr fun h => ht ((has_filtersOf ho).mp h)
    have hnew : s.filtersOf (earlier ++ [x]) = s.filtersOf earlier ++ [(filterName t, o.filter)] :=
      firstUses_snoc_new hx ht (by simp [ho])
    simp [hu, hhas, hnew, ht, Dict.set_of_not_has hhas]

theorem addConnection_connectionsOf {t : String} {o : ObjectType}
    (hu : u.connections = s.connectionsOf earlier) (hx : pagedType? x = some t)
    (ho : s.object? t = some o) :
    (u.addConnection t).2 = { u with connections := s.connectionsOf (earlier ++ [x]) } := by
  unfold addConnection
  by_cases ht : t ∈ earlier.filterMap pagedType?
  · have hnew : s.connectionsOf (earlier ++ [x]) = s.connectionsOf earlier :=
      firstUses_snoc_old hx (Or.inl ht)
    have hmem : t ∈ u.connections := hu ▸ (mem_connectionsOf ho).mpr ht
    simp [hmem, hnew, ← hu]
  · have hnot : t ∉ s.connectionsOf earlier := fun h => ht ((mem_connectionsOf ho).mp h)
    have hnew : s.connectionsOf (earlier ++ [x]) = s.connectionsOf earlier ++ [t] :=
      firstUses_snoc_new hx ht (by simp [ho])
    simp [hu, hnot, hnew]

theorem addInput_inputsOf {c : String × Action} {i : ObjectType} (hu : u.inputs = s.inputsOf earlier)
    (hx : inputCall? x = some c) (hi : s.inputOf c = some (i.name, i)) :
    (u.addInput i).2 = { u with inputs := s.inputsOf (earlier ++ [x]) } := by
  unfold addInput
  by_cases hc : c ∈ earlier.filterMap inputCall?
  · have hnew : s.inputsOf (earlier ++ [x]) = s.inputsOf earlier :=
      firstUses_snoc_old hx (Or.inl hc)
    have hhas : u.inputs.has i.name = true := hu ▸ (has_inputsOf hi).mpr hc
    simp [hhas, hnew, ← hu]
  · have hhas : (s.inputsOf earlier).has i.name = false :=
      Bool.eq_false_iff.mpr fun h => hc ((has_inputsOf hi).mp h)
    have hnew : s.inputsOf (earlier ++ [x]) = s.inputsOf earlier ++ [(i.name, i)] :=
      firstUses_snoc_new hx hc hi
    simp [hu, hhas, hnew, Dict.set_of_not_has hhas]

theorem foldl_addError (es : List SchemaError) (u : Schema) :
    es.foldl (fun s e => s.addError e) u = { u with errors := u.errors ++ es } := by
  induction es generalizing u with
  | nil => simp
  | cons e es ih => rw [List.foldl_cons, ih]; simp [addError]

/-! ## One resolver -/

theorem diagnosticsAfter_snoc (s : Schema) (earlier xs : List (Location × Resolver))
    (x : Location × Resolver) :
    s.diagnosticsAfter earlier (xs ++ [x]) =
      s.diagnosticsAfter earlier xs ++ s.diagnosticsAt (earlier ++ xs) x := by
  induction xs generalizing earlier with
  | nil => simp [diagnosticsAfter]
  | cons y ys ih => simp [diagnosticsAfter, ih, List.append_assoc]

theorem diagnosticsAfter_derived (s : Schema) (rs earlier xs : List (Location × Resolver)) :
    (s.derived rs).diagnosticsAfter earlier xs = s.diagnosticsAfter earlier xs := by
  induction xs generalizing earlier with
  | nil => rfl
  | cons x xs ih =>
      have hx : (s.derived rs).diagnosticsAt earlier x = s.diagnosticsAt earlier x := rfl
      rw [diagnosticsAfter, diagnosticsAfter, hx, ih]

theorem derived_idle (hl : listedType? x = none) (hp : pagedType? x = none)
    (hi : inputCall? x = none) : s.derived (earlier ++ [x]) = s.derived earlier := by
  have hd : s.diagnosticsAt earlier x = [] := by simp [diagnosticsAt, hl, hi]
  simp only [derived, filtersOf, connectionsOf, inputsOf, firstUses_snoc_none hl,
    firstUses_snoc_none hp, firstUses_snoc_none hi, diagnosticsAfter_snoc, List.nil_append, hd,
    List.append_nil]

theorem requestFilter_derived (hs : s.Named) {t : String} {nested : Bool}
    (hl : listedType? x = some t) (hp : pagedType? x = if nested then none else some t)
    (hi : inputCall? x = none) :
    (s.derived earlier).requestFilter t nested = s.derived (earlier ++ [x]) := by
  have hin : s.inputsOf (earlier ++ [x]) = s.inputsOf earlier := firstUses_snoc_none hi
  unfold requestFilter
  have hobj : (s.derived earlier).object? t = s.object? t := rfl
  rw [hobj]
  cases ho : s.object? t with
  | none =>
      have hf : s.filtersOf (earlier ++ [x]) = s.filtersOf earlier :=
        firstUses_snoc_old hl (Or.inr (by simp [ho]))
      have hc : s.connectionsOf (earlier ++ [x]) = s.connectionsOf earlier := by
        cases nested with
        | true => exact firstUses_snoc_none hp
        | false => exact firstUses_snoc_old hp (Or.inr (by simp [ho]))
      have hd : s.diagnosticsAt earlier x = [.unknownType t .filter] := by
        simp [diagnosticsAt, hl, ho]
      simp [derived, addError, hf, hc, hin, diagnosticsAfter_snoc, hd]
  | some o =>
      have hstray : (s.derived earlier).misspelt o = s.strayFields o := misspelt_eq _ _
      have hd : s.diagnosticsAt earlier x =
          if t ∈ earlier.filterMap listedType? then [] else s.strayFields o := by
        simp [diagnosticsAt, hl, ho]
      -- the connection comes before the filter; it changes nothing that the filter depends on
      have hconn : (if nested then s.derived earlier else ((s.derived earlier).addConnection t).2) =
          { s.derived earlier with connections := s.connectionsOf (earlier ++ [x]) } := by
        cases nested with
        | true =>
            have hc : s.connectionsOf (earlier ++ [x]) = s.connectionsOf earlier :=
              firstUses_snoc_none hp
            simp [hc, derived]
        | false => exact addConnection_connectionsOf rfl hp ho
      simp only [hstray, hconn]
      have hu : { s.derived earlier with connections := s.connectionsOf (earlier ++ [x]) }.filters =
          s.filtersOf earlier := rfl
      rw [addFilter_filtersOf hu hl ho (hs t o ho)]
      by_cases ht : t ∈ earlier.filterMap listedType?
      · simp [ht, derived, hin, diagnosticsAfter_snoc, hd]
      · simp [ht, derived, hin, diagnosticsAfter_snoc, hd, foldl_addError]

theorem requestInput_derived (hs : s.Named) {t : String} {a : Action} (hl : listedType? x = none)
    (hp : pagedType? x = none) (hi : inputCall? x = some (t, a)) (ha : a = .insert ∨ a = .update) :
    (s.derived earlier).requestInput t a = s.derived (earlier ++ [x]) := by
  have hf : s.filtersOf (earlier ++ [x]) = s.filtersOf earlier := firstUses_snoc_none hl
  have hc : s.connectionsOf (earlier ++ [x]) = s.connectionsOf earlier := firstUses_snoc_none hp
  unfold requestInput
  have hobj : (s.derived earlier).object? t = s.object? t := rfl
  rw [hobj]
  cases ho : s.object? t with
  | none =>
      have hin : s.inputsOf (earlier ++ [x]) = s.inputsOf earlier :=
        firstUses_snoc_old hi (Or.inr (by simp [inputOf, ho]))
      have hd : s.diagnosticsAt earlier x = [.unknownType t .input] := by
        simp [diagnosticsAt, hl, hi, ho]
      simp [derived, addError, hf, hc, hin, diagnosticsAfter_snoc, hd]
  | some o =>
      have hd : s.diagnosticsAt earlier x = [] := by simp [diagnosticsAt, hl, hi, ho]
      obtain ⟨name, hname⟩ : ∃ name, inputName? t a = some name := by
        rcases ha with rfl | rfl <;> exact ⟨_, rfl⟩
      have hinput : o.input a = .ok { name, fields := o.fields.filterMap (Field.inputField? a) } := by
        simp [ObjectType.input, hs t o ho, hname]
      have hio : s.inputOf (t, a) =
          some (name, { name, fields := o.fields.filterMap (Field.inputField? a) }) := by
        simp [inputOf, ho, hname]
      simp only [hinput]
      have hu : (s.derived earlier).inputs = s.inputsOf earlier := rfl
      rw [addInput_inputsOf hu hi hio]
      simp [derived, hf, hc, diagnosticsAfter_snoc, hd]

theorem meet_input_derived (hs : s.Named) {l : Location} {r : Resolver} {b : Binding}
    (hb : r.binding = some b) (ha : b.action = .insert ∨ b.action = .update) :
    (request? (l, r)).toList.foldl meet (s.derived earlier) = s.derived (earlier ++ [(l, r)]) := by
  have hne : b.action ≠ .list := by rcases ha with h | h <;> simp [h]
  have hl : listedType? (l, r) = none := by simp [listedType?, hb, hne]
  have hp : pagedType? (l, r) = none := by simp [pagedType?, hb, hne]
  cases l with
  | mutation i =>
      have hi : inputCall? (.mutation i, r) = some (b.returnType.name, b.action) := by
        rcases ha with h | h <;> simp [inputCall?, hb, h]
      rw [← requestInput_derived hs hl hp hi ha]
      rcases ha with h | h <;> simp [request?, hb, meet, h]
  | query i | field o i =>
      rw [derived_idle hl hp rfl]
      rcases ha with h | h <;> simp [request?, hb, meet, h]

theorem meet_derived (hs : s.Named) :
    (request? x).toList.foldl meet (s.derived earlier) = s.derived (earlier ++ [x]) := by
  obtain ⟨l, r⟩ := x
  cases hb : r.binding with
  | none =>
      have hr : request? (l, r) = none := by simp [request?, hb]
      have hi : inputCall? (l, r) = none := by cases l <;> simp [inputCall?, hb]
      rw [hr, derived_idle (by simp [listedType?, hb]) (by simp [pagedType?, hb]) hi]
      rfl
  | some b =>
      cases ha : b.action with
      | list =>
          have hl : listedType? (l, r) = some b.returnType.name := by simp [listedType?, hb, ha]
          have hp : pagedType? (l, r) = if b.isNested then none else some b.returnType.name := by
            cases hn : b.isNested <;> simp [pagedType?, hb, ha, hn]
          have hi : inputCall? (l, r) = none := by cases l <;> simp [inputCall?, hb, ha]
          rw [← requestFilter_derived hs hl hp hi]
          simp [request?, hb, meet, ha]
      | insert => exact meet_input_derived hs hb (Or.inl ha)
      | update => exact meet_input_derived hs hb (Or.inr ha)
      | get | delete | custom =>
          have hi : inputCall? (l, r) = none := by cases l <;> simp [inputCall?, hb, ha]
          rw [derived_idle (by simp [listedType?, hb, ha]) (by simp [pagedType?, hb, ha]) hi]
          simp [request?, hb, meet, ha]

/-- Meeting the requests of the resolvers one after another comes to taking all of them in. -/
theorem foldl_meet_derived (hs : s.Named) (rs earlier : List (Location × Resolver)) :
    (rs.filterMap request?).foldl meet (s.derived earlier) = s.derived (earlier ++ rs) := by
  induction rs generalizing earlier with
  | nil => simp
  | cons x xs ih =>
      have hx : (x :: xs).filterMap request? = (request? x).toList ++ xs.filterMap request? := by
        cases h : request? x <;> simp [h]
      rw [hx, List.foldl_append, meet_derived hs, ih]
      simp

end Schema

/-! ## The schema of a manifest -/

namespace Manifest

def bound (m : Manifest) : Schema :=
  (Schema.ofManifest m).bindResolvers

theorem bound_named (m : Manifest) : m.bound.Named := by
  intro t o h
  rw [bound, Schema.bindResolvers_object?] at h
  obtain ⟨o', ho', rfl⟩ := Option.map_eq_some_iff.mp h
  have hv := Dict.value?_map (fun name fields => ({ name, fields } : ObjectType)) m.objects t
  have ho : (Schema.ofManifest m).object? t = (m.objects.value? t).map fun fields => { name := t, fields } := by
    simpa [Schema.object?, Schema.ofManifest] using hv
  rw [ho] at ho'
  obtain ⟨fields, _, rfl⟩ := Option.map_eq_some_iff.mp ho'
  rfl

theorem resolve_eq_derived (m : Manifest) : m.resolve = m.bound.derived m.bound.resolvers := by
  have hstart : m.bound.derived [] = m.bound := by
    have h : m.bound.errors ++ m.bound.diagnosticsAfter [] [] = m.bound.errors := List.append_nil _
    simp only [Schema.derived, h]
    rfl
  have h := Schema.foldl_meet_derived m.bound_named m.bound.resolvers []
  rw [hstart, List.nil_append, ← Schema.requests_eq] at h
  exact h

theorem resolve_resolvers (m : Manifest) : m.resolve.resolvers = m.bound.resolvers := by
  rw [resolve_eq_derived]
  rfl

theorem exists_declaration {m : Manifest} {x : Location × Resolver} (hx : x ∈ m.resolve.resolvers) :
    ∃ d ∈ (Schema.ofManifest m).declarations, x = (d.location, ((d.site m.sources).bind d.resolver).1) := by
  rw [resolve_resolvers, bound, Schema.bindResolvers_resolvers] at hx
  obtain ⟨d, hd, rfl⟩ := List.mem_map.mp hx
  exact ⟨d, hd, rfl⟩

theorem resolve_named (m : Manifest) : m.resolve.Named := by
  rw [resolve_eq_derived]
  exact m.bound_named

theorem resolve_enums (m : Manifest) : m.resolve.enums = m.enums := by
  rw [resolve_eq_derived]
  rfl

theorem resolve_objects (m : Manifest) :
    m.resolve.objects = m.objects.map fun e => (e.1, (ObjectType.bind m.sources { name := e.1, fields := e.2 }).1) := by
  simp [resolve_eq_derived, Schema.derived, bound, Schema.bindResolvers, Schema.ofManifest, Function.comp_def]

theorem resolve_objects_named (m : Manifest) : ∀ e ∈ m.resolve.objects, e.2.name = e.1 := by
  rw [resolve_objects, List.forall_mem_map]
  intro e _
  rfl

theorem resolve_filters (m : Manifest) : m.resolve.filters = m.resolve.filtersOf m.resolve.resolvers := by
  rw [resolve_eq_derived]
  rfl

theorem resolve_connections (m : Manifest) :
    m.resolve.connections = m.resolve.connectionsOf m.resolve.resolvers := by
  rw [resolve_eq_derived]
  rfl

theorem resolve_inputs (m : Manifest) : m.resolve.inputs = m.resolve.inputsOf m.resolve.resolvers := by
  rw [resolve_eq_derived]
  rfl

theorem resolve_errors (m : Manifest) :
    m.resolve.errors = ((Schema.ofManifest m).declarations.filterMap fun d => (d.bind m.sources).2) ++
      m.resolve.diagnosticsAfter [] m.resolve.resolvers := by
  have he := Schema.bindResolvers_errors (Schema.ofManifest m)
  rw [resolve_eq_derived, Schema.diagnosticsAfter_derived]
  simp only [Schema.derived, bound, he]
  rfl

/-- The schema of a manifest has just the filters, connections and inputs that its bound resolvers call
for, each once, at the first that does; its errors are those of binding, and then the diagnostics of the
resolvers in their order. -/
theorem resolve_derives_calls (m : Manifest) :
    let s := m.resolve
    (s.filters = s.filtersOf s.resolvers ∧ s.filters.names.Nodup) ∧
    (s.connections = s.connectionsOf s.resolvers ∧ s.connections.Nodup) ∧
    (s.inputs = s.inputsOf s.resolvers ∧ s.inputs.names.Nodup) ∧
    s.errors = ((Schema.ofManifest m).declarations.filterMap fun d => (d.bind m.sources).2) ++
      s.diagnosticsAfter [] s.resolvers := by
  refine ⟨⟨m.resolve_filters, ?_⟩, ⟨m.resolve_connections, ?_⟩, ⟨m.resolve_inputs, ?_⟩, m.resolve_errors⟩
  · rw [resolve_filters]
    exact Schema.nodup_names_filtersOf _ _
  · rw [resolve_connections]
    exact Schema.nodup_connectionsOf _ _
  · rw [resolve_inputs]
    exact Schema.nodup_names_inputsOf _ _

end Manifest

end ApiManifest
