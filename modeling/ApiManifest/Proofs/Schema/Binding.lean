import ApiManifest.Proofs.Except
import ApiManifest.Schema.Binding

/-!
# Binding a resolver, once and again

Binding a resolver to a field gives it a binding, or changes nothing but its stage. A success also writes
down the template, which is the resolver's own from then on: an action other than `custom` cannot be bound
a second time. What fails after a success keeps the binding of that success.
-/

namespace ApiManifest

/-- What a resolver is bound to: a field of a type, what the field returns, and the declared sources. -/
structure Site where
  sources : Dict DataSource
  parent : String
  field : String
  returnType : FieldType

def Site.bind (s : Site) (r : Resolver) : Resolver × Option SchemaError :=
  r.bind s.sources s.parent s.field s.returnType

/-- A resolver as it is read, before anything binds it. -/
def ResolverOf.Fresh (r : Resolver) : Prop :=
  r.binding = none ∧ r.stage = .declared

/-! ## The check of the action -/

def Action.effectiveTemplate : Action → Option String → Except TemplateConflict String
  | .custom, some t => .ok t
  | .custom, none => .error .customWithout
  | _, some _ => .error .standardWith
  | a, none => .ok a.name

def SchemaError.bindingStage : SchemaError → Stage
  | .unknownDataSource .. => .unbound
  | _ => .invalidAction

theorem SchemaError.bindingStage_cases (e : SchemaError) :
    e.bindingStage = .unbound ∨ e.bindingStage = .invalidAction := by
  cases e <;> simp [bindingStage]

namespace ResolverOf

variable {r : Resolver} {s : Site} {parent field : String} {returnType : FieldType}

theorem checkAction_eq :
    r.checkAction parent field returnType =
      match Action.ofName? r.action with
      | none => .error (.invalidResolverAction parent field r.action)
      | some a =>
        match a.effectiveTemplate r.customTemplate? with
        | .error c => .error (.templateTypeConflict parent field c)
        | .ok t => (checkCardinality a parent field returnType).map fun _ => (a, t) := by
  unfold checkAction
  cases Action.ofName? r.action with
  | none => rfl
  | some a => cases a <;> cases r.customTemplate? <;> rfl

theorem of_checkAction_eq_ok {a : Action} {t : String} (h : r.checkAction parent field returnType = .ok (a, t)) :
    Action.ofName? r.action = some a ∧ a.effectiveTemplate r.customTemplate? = .ok t ∧
      checkCardinality a parent field returnType = .ok () := by
  rw [checkAction_eq] at h
  split at h
  · cases h
  · rename_i a' ha
    split at h
    · cases h
    · rename_i t' ht
      obtain ⟨_, hc, he⟩ := map_eq_ok.mp h
      cases he
      exact ⟨ha, ht, hc⟩

theorem bindingStage_of_checkAction {e : SchemaError} (h : r.checkAction parent field returnType = .error e) :
    e.bindingStage = .invalidAction := by
  rw [checkAction_eq] at h
  split at h
  · cases h
    rfl
  · split at h
    · cases h
      rfl
    · rw [map_eq_error, checkCardinality] at h
      split at h <;> cases h
      rfl

end ResolverOf

/-! ## Once -/

/-- The binding that a resolver gets at a site: the site's own data, the source that is found there, and
the action and the template that are checked there. -/
structure Binding.Of (b : Binding) (r : Resolver) (s : Site) : Prop where
  parentType : b.parentType = s.parent
  fieldName : b.fieldName = s.field
  argsSource : b.argsSource = .ofParent s.parent
  returnType : b.returnType = s.returnType
  source : r.chosenSource? s.sources = some (b.dataSource, b.sourceKind)
  action : r.checkAction s.parent s.field s.returnType = .ok (b.action, b.template)

theorem Binding.Of.template {b : Binding} {r : Resolver} {s : Site} (h : b.Of r s) (hc : b.action ≠ .custom) :
    b.template = b.action.name := by
  obtain ⟨_, ht, _⟩ := ResolverOf.of_checkAction_eq_ok h.action
  cases hb : b.action <;> cases hr : r.customTemplate? <;>
    simp [hb, hr, Action.effectiveTemplate] at ht hc ⊢ <;> exact ht.symm

namespace ResolverOf

variable {r : Resolver} {s : Site}

/-- Binding succeeds, and then the resolver is bound to the field; or it fails, and then only the stage
of the resolver changes. -/
theorem bind_cases (r : Resolver) (s : Site) :
    (∃ b : Binding, s.bind r = ({ r with template := some b.template, binding := some b, stage := .bound }, none) ∧
      b.Of r s) ∨
    ∃ e, s.bind r = ({ r with stage := e.bindingStage }, some e) := by
  unfold Site.bind ResolverOf.bind
  cases hs : r.chosenSource? s.sources with
  | none => exact Or.inr ⟨.unknownDataSource s.parent s.field r.source, rfl⟩
  | some chosen =>
      obtain ⟨name, kind⟩ := chosen
      cases ha : r.checkAction s.parent s.field s.returnType with
      | error e => exact Or.inr ⟨e, by rw [bindingStage_of_checkAction ha]⟩
      | ok checked =>
          obtain ⟨action, template⟩ := checked
          exact Or.inl ⟨⟨s.parent, s.field, .ofParent s.parent, action, template, name, kind, s.returnType⟩,
            rfl, rfl, rfl, rfl, rfl, hs, ha⟩

theorem bind_eq_some {e : SchemaError} (h : (s.bind r).2 = some e) :
    s.bind r = ({ r with stage := e.bindingStage }, some e) := by
  rcases r.bind_cases s with ⟨b, hb, _⟩ | ⟨e', he⟩
  · rw [hb] at h
    cases h
  · rw [he] at h
    cases h
    exact he

theorem bind_eq_none (h : (s.bind r).2 = none) :
    ∃ b : Binding, s.bind r = ({ r with template := some b.template, binding := some b, stage := .bound }, none) ∧
      b.Of r s := by
  rcases r.bind_cases s with hb | ⟨e, he⟩
  · exact hb
  · rw [he] at h
    cases h

theorem Fresh.bind_eq_none (hr : r.Fresh) : (s.bind r).1.binding = none ↔ (s.bind r).2 ≠ none := by
  rcases r.bind_cases s with ⟨b, h, _⟩ | ⟨e, h⟩
  · simp [h]
  · simp [h, hr.1]

/-! ## Again -/

def bindAll (r : Resolver) (sites : List Site) : Resolver :=
  sites.foldl (fun r s => (s.bind r).1) r

def outcomes : Resolver → List Site → List (Option SchemaError)
  | _, [] => []
  | r, s :: sites => (s.bind r).2 :: outcomes (s.bind r).1 sites

/-- A resolver is without a binding after any number of attempts just if all of them have failed. -/
theorem bindAll_binding_eq_none {sites : List Site} :
    (r.bindAll sites).binding = none ↔ r.binding = none ∧ none ∉ r.outcomes sites := by
  induction sites generalizing r with
  | nil => simp [bindAll, outcomes]
  | cons s sites ih =>
      have hstep : r.bindAll (s :: sites) = (s.bind r).1.bindAll sites := rfl
      rw [hstep, ih, outcomes, List.mem_cons, not_or]
      rcases r.bind_cases s with ⟨b, h, _⟩ | ⟨e, h⟩ <;> simp [h]

/-- A resolver with a template of its own beside an action that takes none. -/
def Spent (r : Resolver) : Prop :=
  ∃ a, Action.ofName? r.action = some a ∧ a ≠ .custom ∧ r.customTemplate? ≠ none

theorem Spent.bind_ne_none (hr : r.Spent) : (s.bind r).2 ≠ none := by
  intro h
  obtain ⟨a, ha, hcustom, htemplate⟩ := hr
  obtain ⟨b, _, hb⟩ := ResolverOf.bind_eq_none h
  obtain ⟨ha', ht, _⟩ := of_checkAction_eq_ok hb.action
  cases ha.symm.trans ha'
  obtain ⟨t, ht'⟩ := Option.ne_none_iff_exists'.mp htemplate
  rw [ht'] at ht
  cases hb : b.action <;> simp [hb, Action.effectiveTemplate] at ht hcustom

theorem Spent.bind (hr : r.Spent) : (s.bind r).1.Spent := by
  obtain ⟨e, he⟩ := Option.ne_none_iff_exists'.mp (hr.bind_ne_none (s := s))
  rw [ResolverOf.bind_eq_some he]
  exact hr

theorem Spent.bindAll (hr : r.Spent) (sites : List Site) : (r.bindAll sites).Spent := by
  induction sites generalizing r with
  | nil => exact hr
  | cons s sites ih => exact ih hr.bind

theorem name_not_blank (a : Action) : (Text.trim a.name.toList).isEmpty = false := by
  cases a <;> decide

theorem spent_of_bind (ha : Action.ofName? r.action ≠ some .custom) (h : (s.bind r).2 = none) :
    (s.bind r).1.Spent := by
  obtain ⟨b, hb, hof⟩ := ResolverOf.bind_eq_none h
  obtain ⟨haction, _, _⟩ := of_checkAction_eq_ok hof.action
  have hcustom : b.action ≠ .custom := fun hc => ha (haction.trans (by rw [hc]))
  rw [hb]
  refine ⟨b.action, haction, hcustom, ?_⟩
  simp [customTemplate?, hof.template hcustom, name_not_blank]

/-- Once bound, a resolver of any action but `custom` has a template that this action does not take. -/
theorem spent_bindAll {sites : List Site} (ha : Action.ofName? r.action ≠ some .custom)
    (h : none ∈ r.outcomes sites) : (r.bindAll sites).Spent := by
  induction sites generalizing r with
  | nil => cases h
  | cons s sites ih =>
      cases hs : (s.bind r).2 with
      | none => exact (spent_of_bind ha hs).bindAll sites
      | some e =>
          have haction : (s.bind r).1.action = r.action := by rw [ResolverOf.bind_eq_some hs]
          rw [outcomes, hs] at h
          exact ih (haction ▸ ha) ((List.mem_cons.mp h).resolve_left (by simp))

end ResolverOf

/-- What binding is to leave: the binding of this time, or none; and the stage that goes with it. -/
def Site.Agrees (s : Site) (r : Resolver) : Prop :=
  ((s.bind r).2 = none → (s.bind r).1.stage = .bound ∧ ∃ b, (s.bind r).1.binding = some b ∧ b.Of r s) ∧
  ∀ e, (s.bind r).2 = some e → (s.bind r).1.stage = e.bindingStage ∧ (s.bind r).1.binding = none

/-- After any number of attempts, one more leaves a stage and a binding that agree just if it succeeds or
none before it has. Where it fails, nothing but the stage has changed; and once it has been bound, a
resolver of any action but `custom` always fails. -/
theorem ResolverOf.Fresh.agrees_iff {r : Resolver} (hr : r.Fresh) (earlier : List Site) (s : Site) :
    let q := r.bindAll earlier
    (s.Agrees q ↔ (s.bind q).2 = none ∨ none ∉ r.outcomes earlier) ∧
    (((s.bind q).1.stage = .bound ↔ (s.bind q).1.binding ≠ none) ↔ (s.bind q).2 = none ∨ none ∉ r.outcomes earlier) ∧
    (∀ e, (s.bind q).2 = some e → (s.bind q).1 = { q with stage := e.bindingStage }) ∧
    (none ∈ r.outcomes earlier → Action.ofName? r.action ≠ some .custom → (s.bind q).2 ≠ none) := by
  intro q
  have hbinding : q.binding = none ↔ none ∉ r.outcomes earlier := by
    simp [q, bindAll_binding_eq_none, hr.1]
  refine ⟨?_, ?_, fun e he => by rw [bind_eq_some he], fun h ha => (spent_bindAll ha h).bind_ne_none⟩
  · rcases q.bind_cases s with ⟨b, h, hb⟩ | ⟨e, h⟩
    · simp [Site.Agrees, h, hb]
    · simp [Site.Agrees, h, hbinding]
  · rcases q.bind_cases s with ⟨b, h, hb⟩ | ⟨e, h⟩
    · simp [h]
    · have hstage : e.bindingStage ≠ .bound := by
        rcases e.bindingStage_cases with he | he <;> simp [he]
      simp [h, hstage, hbinding]

def animalSite : Site :=
  { sources := [("default", { lambda := some {} })], parent := queryType, field := "animal", returnType := .named "Animal" }

/-- A resolver with a template of its own is bound where its source is missing, and then in two places. -/
theorem custom_agrees :
    let r : Resolver := { source := "Zoo", action := "custom", template := some " mine " }
    let nowhere : Site := { animalSite with sources := [] }
    let nested : Site := { animalSite with parent := "Person", field := "pet" }
    r.Fresh ∧ r.outcomes [nowhere, animalSite] = [some (.unknownDataSource queryType "animal" "Zoo"), none] ∧
      nested.Agrees (r.bindAll [nowhere, animalSite]) := by
  intro r nowhere nested
  have hr : r.Fresh := ⟨rfl, rfl⟩
  exact ⟨hr, by decide, (hr.agrees_iff [nowhere, animalSite] nested).1.mpr (Or.inl (by decide))⟩

/-- Bound to the same field twice, a resolver is in the stage of a failure and has a binding all the same. -/
theorem getTwice_disagrees :
    let r : Resolver := { source := "default", action := "get" }
    let q := r.bindAll [animalSite, animalSite]
    r.Fresh ∧ r.outcomes [animalSite, animalSite] = [none, some (.templateTypeConflict queryType "animal" .standardWith)] ∧
      q.stage = .invalidAction ∧ q.binding ≠ none ∧ ¬ animalSite.Agrees (r.bindAll [animalSite]) := by
  intro r q
  have hq : q.binding ≠ none := by decide
  refine ⟨⟨rfl, rfl⟩, by decide, by decide, hq, fun h => ?_⟩
  exact hq (h.2 (.templateTypeConflict queryType "animal" .standardWith) (by decide)).2

end ApiManifest
