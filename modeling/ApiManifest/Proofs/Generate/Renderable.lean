import ApiManifest.Proofs.Generate.Accounting
import ApiManifest.Proofs.Schema.Conditions
import ApiManifest.Proofs.Template.Loading
import ApiManifest.Proofs.Text.Utf8

/-!
# What is bound can be rendered

Rendering checks again what loading and binding a manifest have checked before. For the schema of a
manifest that is accepted these checks never fail: whatever goes wrong with a bound resolver or a data
source is the templates' doing.
-/

namespace ApiManifest

/-! ## The guards of rendering -/

theorem Binding.Of.prepare {b : Binding} {r q : Resolver} {s : Site} (h : b.Of r s) (hq : q.binding = some b) :
    ∃ c, Binder.prepare s.sources q = .ok (b, c) := by
  obtain ⟨source, hchosen, hkind⟩ := ResolverOf.chosenSource?_eq_some_iff.mp h.source
  rw [source.kind?_eq b.dataSource] at hkind
  obtain ⟨c, hc, _⟩ := Option.map_eq_some_iff.mp hkind
  obtain ⟨_, _, hcard⟩ := ResolverOf.of_checkAction_eq_ok h.action
  rw [← h.parentType, ← h.fieldName, ← h.returnType] at hcard
  refine ⟨c, ?_⟩
  simp only [Binder.prepare, hq, hcard, hchosen.value?, Option.bind_some, hc]
  rfl

namespace Manifest

variable {m : Manifest}

theorem WellRead.prepare (hm : m.WellRead) {x : Location × Resolver} (hx : x ∈ m.resolve.resolvers)
    (hb : x.2.binding ≠ none) : ∃ p, Binder.prepare m.resolve.sources x.2 = .ok p := by
  rw [m.resolve_sources]
  obtain ⟨d, hd, rfl⟩ := exists_declaration hx
  rcases d.resolver.bind_cases (d.site m.sources) with ⟨b, hbind, hof⟩ | ⟨e, hbind⟩
  · obtain ⟨c, hc⟩ := hof.prepare (q := ((d.site m.sources).bind d.resolver).1) (by rw [hbind])
    exact ⟨_, hc⟩
  · -- what was read has no binding, and a failure gives it none
    rw [hbind] at hb
    exact absurd (hm.fresh d hd).1 hb

end Manifest

/-! ## Runs -/

def Artifact.resolver? : Artifact → Option Resolver
  | .resolver r => some r
  | _ => none

theorem Schema.artifacts_resolver? (s : Schema) : s.artifacts.filterMap Artifact.resolver? = s.boundResolvers := by
  have hsources : (s.sources.map fun e => Artifact.source e.1 e.2).filterMap Artifact.resolver? = [] := by
    simp [List.filterMap_map, Artifact.resolver?, Function.comp_def]
  simp [artifacts, hsources, List.filterMap_cons, Artifact.resolver?, List.filterMap_map, Function.comp_def]

/-- The entry that tells how far the rendering of a resolver has come. -/
structure ResolverOf.Ends (r : Resolver) (entry : String × Stage) : Prop where
  name : entry.1 = r.display
  stage : entry.2 = .rendered ∨ entry.2 = .templateMissing ∨ entry.2 = .templateSelected

namespace Generation

variable {σ : Type} {g : Generation} {sink : Sink σ} {order : List Artifact} {recorded : List ArtifactResult}

theorem ends_of_render {r : Resolver} (hr : ∃ p, Binder.prepare g.schema.sources r = .ok p) (files : Reader)
    (b : Binder) :
    ∃ stage, ((Artifact.resolver r).render g files b).1.stage = some stage ∧ r.Ends (r.display, stage) := by
  obtain ⟨p, hp⟩ := hr
  cases h : (b.bind files g.schema.apiName g.schema.sources g.generatedAt r).1 with
  | ok out => exact ⟨.rendered, by simp only [Artifact.render, h], rfl, Or.inl rfl⟩
  | error e =>
      have hstage := RenderError.stage_of_isOfTemplates (Binder.isOfTemplates_of_bind hp h)
      exact ⟨e.stage, by simp only [Artifact.render, h], rfl, Or.inr hstage⟩

theorem renderings_ends (h : ∀ r ∈ order.filterMap Artifact.resolver?, ∃ p, Binder.prepare g.schema.sources r = .ok p)
    (sink : Sink σ) (b : Binder) (stored : σ) :
    List.Forall₂ ResolverOf.Ends (order.filterMap Artifact.resolver?)
      ((g.renderings sink order b stored).filterMap fun r => r.stage.map fun stage => (r.artifact, stage)) := by
  induction order generalizing b stored with
  | nil => exact .nil
  | cons a as ih =>
      cases a with
      | schema => exact ih h _ _
      | source name declaration => exact ih h _ _
      | resolver r =>
          obtain ⟨hr, has⟩ := List.forall_mem_cons.mp h
          obtain ⟨stage, hstage, hends⟩ := ends_of_render hr (sink.files stored) b
          simp only [renderings, List.filterMap_cons, hstage, Option.map_some]
          exact .cons hends (ih has _ _)

theorem reportOf_stages_of_prepared (b : Binder) (stored : σ)
    (h : ∀ r ∈ g.schema.boundResolvers, ∃ p, Binder.prepare g.schema.sources r = .ok p)
    (horder : order.Perm g.schema.artifacts) (hrecorded : recorded.Perm (g.results sink order b stored).1) :
    ∃ rs ends, rs.Perm g.schema.boundResolvers ∧ List.Forall₂ ResolverOf.Ends rs ends ∧
      (g.reportOf recorded).stages.Perm (g.schema.initialReport.stages ++ ends) := by
  have hrs : (order.filterMap Artifact.resolver?).Perm g.schema.boundResolvers :=
    (horder.filterMap _).trans (.of_eq g.schema.artifacts_resolver?)
  refine ⟨_, _, hrs, renderings_ends (fun r hr => h r (hrs.mem_iff.mp hr)) sink b stored, ?_⟩
  refine reportOf_stages_perm.trans (.append_left _ ?_)
  exact (hrecorded.filterMap _).trans (.of_eq (stageEntry?_of_told (results_told order b stored)))

end Generation

/-! ## Schemas of manifests -/

/-- Nothing but the templates keeps what a schema has bound, and the sources that it declares, from being
rendered. -/
structure Schema.Renderable (s : Schema) : Prop where
  found : ∀ x ∈ s.resolvers, x.2.binding ≠ none → s.resolverAt? x.1 = some x.2
  resolvers : ∀ r ∈ s.boundResolvers, ∀ (b : Binder) files apiName at' e,
    (b.bind files apiName s.sources at' r).1 = .error e → e.isOfTemplates = true
  sources : ∀ entry ∈ s.sources, ∀ (b : Binder) files apiName at' e,
    (b.renderSource files apiName at' entry.1 entry.2).1 = .error e → e.isOfTemplates = true
  /-- A report tells of each bound resolver that it has been rendered, or how far it has come with its
  templates; the other stages are those of unbound ones. -/
  stages : ∀ {σ : Type} (g : Generation) (sink : Sink σ) (b : Binder) (stored : σ) order recorded,
    g.schema = s → order.Perm s.artifacts → recorded.Perm (g.results sink order b stored).1 →
    ∃ rs ends, rs.Perm s.boundResolvers ∧ List.Forall₂ ResolverOf.Ends rs ends ∧
      (g.reportOf recorded).stages.Perm (s.initialReport.stages ++ ends)

namespace Manifest

theorem parse_renderable {bytes : List UInt8} {m : Manifest} (h : parse bytes = .ok m) : m.resolve.Renderable := by
  have hread := parse_wellRead h
  have hprepare : ∀ r ∈ m.resolve.boundResolvers, ∃ p, Binder.prepare m.resolve.sources r = .ok p := by
    intro r hr
    obtain ⟨hr, hb⟩ := List.mem_filter.mp hr
    obtain ⟨x, hx, rfl⟩ := List.mem_map.mp hr
    exact hread.prepare hx (Option.isSome_iff_ne_none.mp hb)
  constructor
  case found => exact fun x hx _ => hread.resolverAt?_iff.mpr hx
  case resolvers =>
    intro r hr b files apiName at' e he
    obtain ⟨p, hp⟩ := hprepare r hr
    exact Binder.isOfTemplates_of_bind hp he
  case sources =>
    intro entry hentry b files apiName at' e he
    rw [m.resolve_sources] at hentry
    exact Binder.isOfTemplates_of_renderSource (kind?_of_parse h hentry) he
  case stages =>
    rintro σ g sink b stored order recorded hg horder hrecorded
    rw [← hg] at hprepare horder ⊢
    exact Generation.reportOf_stages_of_prepared b stored hprepare horder hrecorded

def nestedGet : String :=
  "version: v2\napiNameSuffix: zoo\nobjects:\n  Person:\n    - name: pet\n      resolver:\n        action: get\n" ++
    "sources:\n  default:\n    lambda: \x7b\x7d\n"

theorem nestedGet_bound :
    (parse (Text.Utf8.encode nestedGet)).toOption.map (·.resolve.boundResolvers.length) = some 1 := by
  rw [Text.Utf8.encode_eq_data]
  decide +kernel

theorem nestedGet_renderable :
    ∃ m, parse (Text.Utf8.encode nestedGet) = .ok m ∧ m.resolve.boundResolvers.length = 1 ∧ m.resolve.Renderable := by
  have hbound := nestedGet_bound
  cases hm : parse (Text.Utf8.encode nestedGet) with
  | error e => simp [hm, Except.toOption] at hbound
  | ok m => exact ⟨m, rfl, by simpa [hm, Except.toOption] using hbound, parse_renderable hm⟩

end Manifest

end ApiManifest
