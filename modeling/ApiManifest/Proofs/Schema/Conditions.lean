import ApiManifest.Proofs.Dict
import ApiManifest.Proofs.Schema.Binding
import ApiManifest.Proofs.Text.Blank

/-!
# What a resolver needs in order to be bound

Four conditions on a resolver and its site, in the order in which they are checked: a sound source, an action, a
template that goes with the action, and a type that does. A resolver is bound just if all of them hold, and the
first one that does not is what is reported.
-/

namespace ApiManifest

/-- The error that stands beside the first condition that does not hold. -/
inductive FirstFailing {ε : Type} : List (Prop × ε) → ε → Prop where
  | here {p : Prop} {e : ε} {cs : List (Prop × ε)} (h : ¬ p) : FirstFailing ((p, e) :: cs) e
  | later {p : Prop} {e e' : ε} {cs : List (Prop × ε)} (h : p) (hcs : FirstFailing cs e) :
      FirstFailing ((p, e') :: cs) e

namespace FirstFailing

variable {ε : Type} {cs : List (Prop × ε)} {e e' : ε}

theorem not_forall (h : FirstFailing cs e) : ¬ ∀ c ∈ cs, c.1 := by
  induction h with
  | here h => exact fun hall => h (hall _ List.mem_cons_self)
  | later _ _ ih => exact fun hall => ih fun c hc => hall c (List.mem_cons_of_mem _ hc)

theorem unique (h : FirstFailing cs e) (h' : FirstFailing cs e') : e = e' := by
  induction h with
  | here h =>
      cases h' with
      | here => rfl
      | later hp => exact absurd hp h
  | later h _ ih =>
      cases h' with
      | here hp => exact absurd h hp
      | later _ h' => exact ih h'

end FirstFailing

/-! ## The conditions -/

def DataSource.Declares (d : DataSource) : SourceKind → Prop
  | .dynamo => d.dynamo ≠ none
  | .sql => d.sql ≠ none
  | .lambda => d.lambda ≠ none

def ResolverOf.HasTemplate (r : Resolver) : Prop :=
  ∃ t, r.template = some t ∧ ¬ Text.Blank t.toList

namespace Site

/-- The source that the resolver uses there, by name: the one that it asks for, or the default one if that is not
declared at all. -/
inductive Chooses (s : Site) (r : Resolver) : String → DataSource → Prop where
  | requested {d : DataSource} (h : s.sources.value? r.source = some d) : Chooses s r r.source d
  | default {d : DataSource} (hr : r.source ∉ s.sources.names) (h : s.sources.value? defaultSource = some d) :
      Chooses s r defaultSource d

def actionConditions (s : Site) (r : Resolver) : List (Prop × SchemaError) :=
  [(r.action ∈ ["get", "list", "insert", "update", "delete", "custom"],
      .invalidResolverAction s.parent s.field r.action),
    (r.HasTemplate ↔ r.action = "custom",
      .templateTypeConflict s.parent s.field (if r.action = "custom" then .customWithout else .standardWith)),
    (r.action = "list" → s.returnType.isList = true, .mismatchedCardinality s.parent s.field s.returnType.shorthand)]

def conditions (s : Site) (r : Resolver) : List (Prop × SchemaError) :=
  (∃ name d, s.Chooses r name d ∧ d.variantCount = 1, .unknownDataSource s.parent s.field r.source) ::
    s.actionConditions r

end Site

theorem Site.Chooses.value? {s : Site} {r : Resolver} {name : String} {d : DataSource} (h : s.Chooses r name d) :
    s.sources.value? name = some d := by
  cases h with
  | requested h | default _ h => exact h

structure Binding.Carries (b : Binding) (r : Resolver) (s : Site) : Prop where
  parentType : b.parentType = s.parent
  fieldName : b.fieldName = s.field
  argsSource : b.argsSource = if s.parent = "Query" ∨ s.parent = "Mutation" then .args else .source
  action : b.action.name = r.action
  template : if r.action = "custom" then ∃ t, r.template = some t ∧ b.template = Text.trimmed t
    else b.template = r.action
  source : ∃ d, s.Chooses r b.dataSource d ∧ d.variantCount = 1 ∧ d.Declares b.sourceKind
  returnType : b.returnType = s.returnType

/-! ## The checks against the conditions -/

theorem DataSource.kind?_eq_some_iff {d : DataSource} {k : SourceKind} :
    d.kind? = some k ↔ d.variantCount = 1 ∧ d.Declares k := by
  obtain ⟨dynamo, sql, lambda⟩ := d
  cases dynamo <;> cases sql <;> cases lambda <;> cases k <;>
    simp [kind?, variant?, variantCount, Declares, SourceVariant.kind]

theorem DataSource.exists_kind? {d : DataSource} (h : d.variantCount = 1) : ∃ k, d.kind? = some k := by
  obtain ⟨dynamo, sql, lambda⟩ := d
  cases dynamo <;> cases sql <;> cases lambda <;> simp [kind?, variant?, variantCount] at h ⊢

namespace Action

theorem ofName?_name (a : Action) : ofName? a.name = some a := by
  cases a <;> rfl

theorem ofName?_eq_some_iff {text : String} {a : Action} : ofName? text = some a ↔ text = a.name := by
  constructor
  · intro h
    have hname := List.find?_some h
    exact (beq_iff_eq.mp hname).symm
  · rintro rfl
    exact ofName?_name a

theorem name_eq_iff (a a' : Action) : a.name = a'.name ↔ a = a' := by
  rw [← ofName?_eq_some_iff, ofName?_name, Option.some_inj]

theorem mem_names_iff {text : String} :
    text ∈ ["get", "list", "insert", "update", "delete", "custom"] ↔ ∃ a : Action, text = a.name := by
  constructor
  · intro h
    obtain ⟨a, _, rfl⟩ : ∃ a ∈ all, a.name = text := List.mem_map.mp h
    exact ⟨a, rfl⟩
  · rintro ⟨a, rfl⟩
    cases a <;> decide

variable {a : Action} {template : Option String}

theorem effectiveTemplate_eq_ok {t : String} (h : a.effectiveTemplate template = .ok t) :
    (template ≠ none ↔ a = .custom) ∧ t = template.getD a.name := by
  cases a <;> cases template <;> simp_all [effectiveTemplate]

theorem effectiveTemplate_eq_error {c : TemplateConflict} (h : a.effectiveTemplate template = .error c) :
    ¬ (template ≠ none ↔ a = .custom) ∧ c = if a = .custom then .customWithout else .standardWith := by
  cases a <;> cases template <;> simp_all [effectiveTemplate]

end Action

theorem checkCardinality_cases (a : Action) (parent field : String) (t : FieldType) :
    ((a = .list → t.isList = true) ∧ checkCardinality a parent field t = .ok ()) ∨
      ¬ (a = .list → t.isList = true) ∧
        checkCardinality a parent field t = .error (.mismatchedCardinality parent field t.shorthand) := by
  unfold checkCardinality
  by_cases ha : a = .list <;> by_cases ht : t.isList = true <;> simp [ha, ht]

theorem ArgsSource.ofParent_eq (parent : String) :
    ofParent parent = if parent = "Query" ∨ parent = "Mutation" then .args else .source := by
  unfold ofParent
  simp only [Bool.or_eq_true, decide_eq_true_iff]
  rfl

namespace ResolverOf

variable {r : Resolver} {s : Site}

theorem customTemplate?_eq_some {t : String} (h : r.customTemplate? = some t) :
    ∃ u, r.template = some u ∧ ¬ Text.Blank u.toList ∧ t = Text.trimmed u := by
  unfold customTemplate? at h
  split at h
  · cases h
  · rename_i u hu
    split at h
    · cases h
    · rename_i hblank
      cases h
      exact ⟨u, hu, fun hb => hblank (Text.isEmpty_trim_iff.mpr hb), rfl⟩

theorem customTemplate?_ne_none_iff : r.customTemplate? ≠ none ↔ r.HasTemplate := by
  constructor
  · intro h
    obtain ⟨t, ht⟩ := Option.ne_none_iff_exists'.mp h
    obtain ⟨u, hu, hblank, _⟩ := customTemplate?_eq_some ht
    exact ⟨u, hu, hblank⟩
  · rintro ⟨u, hu, hblank⟩ h
    rw [← Text.isEmpty_trim_iff] at hblank
    simp only [customTemplate?, hu, if_neg hblank, reduceCtorEq] at h

theorem chosenSource?_eq_some_iff {name : String} {kind : SourceKind} :
    r.chosenSource? s.sources = some (name, kind) ↔ ∃ d, s.Chooses r name d ∧ d.kind? = some kind := by
  unfold chosenSource?
  cases hv : s.sources.value? r.source with
  | some d =>
      simp only [Option.bind_some, Option.map_eq_some_iff, Prod.mk.injEq]
      constructor
      · rintro ⟨k, hk, rfl, rfl⟩
        exact ⟨d, .requested hv, hk⟩
      · rintro ⟨d', hd', hk⟩
        cases hd' with
        | requested h =>
            cases hv.symm.trans h
            exact ⟨kind, hk, rfl, rfl⟩
        | default hr _ => cases hv.symm.trans (Dict.value?_eq_none_iff.mpr hr)
  | none =>
      simp only [Option.bind_eq_some_iff, Option.map_eq_some_iff]
      constructor
      · rintro ⟨⟨n, d⟩, ⟨d', hd', he⟩, k, hk, he'⟩
        cases he
        cases he'
        exact ⟨d, .default (Dict.value?_eq_none_iff.mp hv) hd', hk⟩
      · rintro ⟨d, hd, hk⟩
        cases hd with
        | requested h => cases hv.symm.trans h
        | default _ h => exact ⟨(defaultSource, d), ⟨d, h, rfl⟩, kind, hk, rfl⟩

end ResolverOf

/-! ## Binding against the conditions -/

namespace Site

variable {s : Site} {r : Resolver}

theorem sound_source_iff : (∃ name d, s.Chooses r name d ∧ d.variantCount = 1) ↔ r.chosenSource? s.sources ≠ none := by
  rw [Option.ne_none_iff_exists']
  constructor
  · rintro ⟨name, d, hchosen, hcount⟩
    obtain ⟨k, hk⟩ := d.exists_kind? hcount
    exact ⟨(name, k), ResolverOf.chosenSource?_eq_some_iff.mpr ⟨d, hchosen, hk⟩⟩
  · rintro ⟨⟨name, k⟩, h⟩
    obtain ⟨d, hchosen, hk⟩ := ResolverOf.chosenSource?_eq_some_iff.mp h
    exact ⟨name, d, hchosen, (DataSource.kind?_eq_some_iff.mp hk).1⟩

theorem checkAction_outcome (s : Site) (r : Resolver) :
    ((∀ c ∈ s.actionConditions r, c.1) ∧ ∃ checked, r.checkAction s.parent s.field s.returnType = .ok checked) ∨
      ∃ e, FirstFailing (s.actionConditions r) e ∧ r.checkAction s.parent s.field s.returnType = .error e := by
  cases ha : Action.ofName? r.action with
  | none =>
      refine .inr ⟨_, .here ?_, by rw [ResolverOf.checkAction_eq, ha]⟩
      rw [Action.mem_names_iff]
      rintro ⟨a, hname⟩
      rw [Action.ofName?_eq_some_iff.mpr hname] at ha
      cases ha
  | some a =>
      have hname := Action.ofName?_eq_some_iff.mp ha
      have hknown := Action.mem_names_iff.mpr ⟨a, hname⟩
      have hcustom : r.action = "custom" ↔ a = .custom := hname ▸ a.name_eq_iff .custom
      have hlist : r.action = "list" ↔ a = .list := hname ▸ a.name_eq_iff .list
      cases ht : a.effectiveTemplate r.customTemplate? with
      | error c =>
          obtain ⟨hfits, hc⟩ := Action.effectiveTemplate_eq_error ht
          rw [ResolverOf.customTemplate?_ne_none_iff, ← hcustom] at hfits
          simp only [← hcustom] at hc
          refine .inr ⟨_, .later hknown (.here hfits), ?_⟩
          simp only [ResolverOf.checkAction_eq, ha, ht, hc]
      | ok t =>
          have hfits := (Action.effectiveTemplate_eq_ok ht).1
          rw [ResolverOf.customTemplate?_ne_none_iff, ← hcustom] at hfits
          have hcheck : r.checkAction s.parent s.field s.returnType =
              (checkCardinality a s.parent s.field s.returnType).map fun _ => (a, t) := by
            simp only [ResolverOf.checkAction_eq, ha, ht]
          rcases checkCardinality_cases a s.parent s.field s.returnType with ⟨hc, h⟩ | ⟨hc, h⟩
          · rw [← hlist] at hc
            refine .inl ⟨?_, (a, t), by rw [hcheck, h, Except.map]⟩
            simp only [actionConditions, List.forall_mem_cons]
            exact ⟨hknown, hfits, hc, nofun⟩
          · rw [← hlist] at hc
            exact .inr ⟨_, .later hknown (.later hfits (.here hc)), by rw [hcheck, h, Except.map]⟩

theorem bind_outcome (s : Site) (r : Resolver) :
    ((∀ c ∈ s.conditions r, c.1) ∧ (s.bind r).2 = none) ∨
      ∃ e, FirstFailing (s.conditions r) e ∧ (s.bind r).2 = some e := by
  have hsource := sound_source_iff (s := s) (r := r)
  unfold bind ResolverOf.bind
  cases hchosen : r.chosenSource? s.sources with
  | none => exact .inr ⟨_, .here fun h => hsource.mp h hchosen, rfl⟩
  | some chosen =>
      have hsound := hsource.mpr (by simp [hchosen])
      rcases s.checkAction_outcome r with ⟨hall, checked, hchecked⟩ | ⟨e, hfirst, hchecked⟩
      · exact .inl ⟨List.forall_mem_cons.mpr ⟨hsound, hall⟩, by simp only [hchecked]⟩
      · exact .inr ⟨e, .later hsound hfirst, by simp only [hchecked]⟩

end Site

theorem Binding.Of.carries {b : Binding} {r : Resolver} {s : Site} (h : b.Of r s) : b.Carries r s where
  parentType := h.parentType
  fieldName := h.fieldName
  argsSource := h.argsSource.trans (ArgsSource.ofParent_eq s.parent)
  action := by
    obtain ⟨ha, _, _⟩ := ResolverOf.of_checkAction_eq_ok h.action
    exact (Action.ofName?_eq_some_iff.mp ha).symm
  template := by
    obtain ⟨ha, ht, _⟩ := ResolverOf.of_checkAction_eq_ok h.action
    have hname := Action.ofName?_eq_some_iff.mp ha
    obtain ⟨hfits, hb⟩ := Action.effectiveTemplate_eq_ok ht
    split
    · rename_i hcustom
      have ha : b.action = .custom := (b.action.name_eq_iff .custom).mp (hname.symm.trans hcustom)
      obtain ⟨t, ht⟩ := Option.ne_none_iff_exists'.mp (hfits.mpr ha)
      obtain ⟨u, hu, _, rfl⟩ := ResolverOf.customTemplate?_eq_some ht
      exact ⟨u, hu, by rw [hb, ht, Option.getD_some]⟩
    · rename_i hcustom
      have ha : b.action ≠ .custom := fun ha => hcustom (by rw [hname, ha]; rfl)
      rw [h.template ha, hname]
  source := by
    obtain ⟨d, hd, hk⟩ := ResolverOf.chosenSource?_eq_some_iff.mp h.source
    exact ⟨d, hd, DataSource.kind?_eq_some_iff.mp hk⟩
  returnType := h.returnType

/-- A resolver is bound just if all conditions hold, and otherwise the first that fails is reported; a source that is
declared, but not with one technology, is not replaced. On success the binding carries what it should and nothing is
changed beside the template, the binding and the stage; on failure nothing is changed but the stage. -/
theorem Site.bind_exact (s : Site) (r : Resolver) :
    ((s.bind r).2 = none ↔ ∀ c ∈ s.conditions r, c.1) ∧
    (∀ e, (s.bind r).2 = some e ↔ FirstFailing (s.conditions r) e) ∧
    (∀ d, s.sources.value? r.source = some d → d.variantCount ≠ 1 →
      (s.bind r).2 = some (.unknownDataSource s.parent s.field r.source)) ∧
    ((s.bind r).2 = none → ∃ b : Binding, b.Carries r s ∧
      (s.bind r).1 = { r with template := some b.template, binding := some b, stage := .bound }) ∧
    ∀ e, (s.bind r).2 = some e → (s.bind r).1 = { r with stage := e.bindingStage } := by
  have hreports : ∀ e, (s.bind r).2 = some e ↔ FirstFailing (s.conditions r) e := by
    intro e
    rcases s.bind_outcome r with ⟨hall, h⟩ | ⟨e', he', h⟩
    · rw [h]
      exact ⟨nofun, fun he => absurd hall he.not_forall⟩
    · rw [h]
      exact ⟨fun he => Option.some.inj he ▸ he', fun he => congrArg some (he'.unique he)⟩
  refine ⟨?_, hreports, ?_, ?_, ?_⟩
  · rcases s.bind_outcome r with ⟨hall, h⟩ | ⟨e', he', h⟩
    · exact ⟨fun _ => hall, fun _ => h⟩
    · rw [h]
      exact ⟨nofun, fun hall => absurd hall he'.not_forall⟩
  · intro d hd hcount
    refine (hreports _).mpr (.here ?_)
    rintro ⟨name, d', hchosen, hcount'⟩
    cases hchosen with
    | requested h =>
        cases hd.symm.trans h
        exact hcount hcount'
    | default hr _ => cases hd.symm.trans (Dict.value?_eq_none_iff.mpr hr)
  · intro h
    obtain ⟨b, hb, hof⟩ := ResolverOf.bind_eq_none h
    exact ⟨b, hof.carries, by rw [hb]⟩
  · intro e h
    rw [ResolverOf.bind_eq_some h]

/-- An unknown action is reported before the template that it has no use for, and that before the type. -/
example :
    let r (action : String) : Resolver := { source := "Zoo", action, template := some "mine" }
    (animalSite.bind (r "get-item")).2 = some (.invalidResolverAction queryType "animal" "get-item") ∧
      (animalSite.bind (r "list")).2 = some (.templateTypeConflict queryType "animal" .standardWith) := by
  decide

end ApiManifest
