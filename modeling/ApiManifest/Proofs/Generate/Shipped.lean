import ApiManifest.Proofs.Generate.Renderable
import ApiManifest.Proofs.Manifest.WellFormed
import ApiManifest.Proofs.Template.Shipped

/-!
# The shipped templates render every manifest

With the shipped templates and no others, every source of an accepted manifest is rendered, and so is every bound
resolver of an action that templates are shipped for. For any other standard action there is no template to be found.
-/

namespace ApiManifest

open Template (Scope areWithin)

/-! ## Sets of templates -/

structure TemplateSet.Within (s : TemplateSet) : Prop where
  wrapper : areWithin ShippedTemplates.wrapperScope s.wrapper.nodes = true
  request : areWithin ShippedTemplates.resolverScope s.request.nodes = true
  response : areWithin ShippedTemplates.resolverScope s.response.nodes = true

theorem TemplateSet.Within.exists_render {s : TemplateSet} (h : s.Within) (extension : String) (c : ResolverContext) :
    ∃ out, s.render extension c = .ok out := by
  have hfragment {t : Template} (ht : areWithin ShippedTemplates.resolverScope t.nodes = true) :
      ∃ out, t.render s.partials c.toJson = .ok out :=
    Template.exists_renderWithin c.meets rfl ht _
  have hmet : ShippedTemplates.wrapperScope.MetBy c.toJson := ⟨c.meets.paths, c.meets.guarded⟩
  have hwrapper : ∃ out, s.wrapper.render s.partials c.toJson = .ok out := by
    refine Template.exists_render hmet h.wrapper fun p hp => ?_
    simp only [ShippedTemplates.wrapperScope, List.mem_cons, List.not_mem_nil, or_false] at hp
    rcases hp with rfl | rfl
    · exact ⟨s.request, rfl, h.request⟩
    · exact ⟨s.response, rfl, h.response⟩
  obtain ⟨request, hrequest⟩ := hfragment h.request
  obtain ⟨response, hresponse⟩ := hfragment h.response
  obtain ⟨text, htext⟩ := hwrapper
  simp only [render, hrequest, hresponse, htext]
  exact ⟨_, rfl⟩

namespace ShippedTemplates.Installed

variable {reader : Reader} {root : Path}

theorem exists_load (h : Installed reader root) {name : Path} {s : Scope} (hname : holdsWithin name s = true) :
    ∃ t, TemplateRoots.load reader { standard := root } name = .ok t ∧ areWithin s t.nodes = true := by
  unfold holdsWithin at hname
  cases hnodes : Dict.value? files name with
  | none => simp [hnodes] at hname
  | some nodes =>
      rw [hnodes, Option.any_some] at hname
      exact ⟨_, h.load hnodes, hname⟩

/-- The templates of a standard action are loaded if they are shipped; otherwise the request is missing. -/
theorem load_cases (h : Installed reader root) (kind : SourceKind) {action : Action} (hc : action ≠ .custom)
    (isNested : Bool) :
    let key := TemplateKey.standard kind action isNested
    (IsSupplied kind action isNested ∧
      ∃ set, TemplateSet.load reader { standard := root } key = .ok set ∧ set.Within) ∨
    (¬ IsSupplied kind action isNested ∧ TemplateSet.load reader { standard := root } key =
      .error (.templateMissing key.requestPath [root.join key.requestPath])) := by
  -- the wrapper comes first and is there for all; without a request the response is not looked for
  obtain ⟨wrapper, hwrapper, hwithin⟩ := h.exists_load holdsWithin_wrapper
  rcases standard_cases kind hc isNested with ⟨hs, hrequest, hresponse⟩ | ⟨hs, habsent⟩
  · obtain ⟨request, hrequest, hrequest'⟩ := h.exists_load hrequest
    obtain ⟨response, hresponse, hresponse'⟩ := h.exists_load hresponse
    refine .inl ⟨hs, { wrapper, request, response }, ?_, hwithin, hrequest', hresponse'⟩
    simp only [TemplateSet.load, hwrapper, hrequest, hresponse]
    rfl
  · refine .inr ⟨hs, ?_⟩
    simp only [TemplateSet.load, hwrapper, load_absent (h.absent kind action isNested habsent)]
    rfl

end ShippedTemplates.Installed

/-! ## Binders at work -/

namespace Binder

/-- What a binder becomes while it renders one thing after another and the files stay as they are. -/
inductive Later (files : Reader) (b : Binder) : Binder → Prop where
  | refl : Later files b b
  | bind {b'} (h : Later files b b') (apiName : String) (sources : Dict DataSource) (at' : Instant) (r : Resolver) :
      Later files b (b'.bind files apiName sources at' r).2
  | renderSource {b'} (h : Later files b b') (apiName : String) (at' : Instant) (name : String) (source : DataSource) :
      Later files b (b'.renderSource files apiName at' name source).2

variable {files : Reader} {b b' : Binder}

theorem Later.like (h : Later files b b') : Like files b b' := by
  induction h with
  | refl => exact .refl files b
  | bind _ apiName sources at' r ih => exact ih.trans (like_bind files apiName sources at' r _)
  | renderSource _ apiName at' name source ih => exact ih.trans (like_renderSource files apiName at' name source _)

variable {roots : TemplateRoots} {extension : String}

theorem Later.templateSet (h : Later files { roots, extension } b) (key : TemplateKey) :
    (b.templateSet files key).1 = TemplateSet.load files roots key := by
  rw [h.like.sets, templateSet_eq, fetch_fst]
  rfl

theorem Later.sourceTemplate (h : Later files { roots, extension } b) (kind : SourceKind) :
    (b.sourceTemplate files kind).1 = roots.load files kind.templatePath := by
  rw [h.like.sources, sourceTemplate_eq, fetch_fst]
  rfl

end Binder

/-! ## Manifests -/

namespace Manifest

variable {m : Manifest}

theorem WellRead.exists_prepare (hm : m.WellRead) {r : Resolver} (hr : r ∈ m.resolve.boundResolvers) {binding : Binding}
    (hb : r.binding = some binding) (hc : binding.action ≠ .custom) :
    ∃ c, Binder.prepare m.resolve.sources r = .ok (binding, c) ∧
      TemplateKey.ofBinding binding = .standard binding.sourceKind binding.action binding.isNested := by
  obtain ⟨x, hx, rfl⟩ := List.mem_map.mp (List.mem_filter.mp hr).1
  obtain ⟨d, hd, rfl⟩ := exists_declaration hx
  rw [m.resolve_sources]
  rcases d.resolver.bind_cases (d.site m.sources) with ⟨b, hbind, hof⟩ | ⟨e, hbind⟩
  · rw [hbind] at hb
    cases hb
    obtain ⟨c, hprepare⟩ := hof.prepare (q := ((d.site m.sources).bind d.resolver).1) (by rw [hbind])
    refine ⟨c, hprepare, ?_⟩
    rw [TemplateKey.ofBinding, hof.template hc]
    rfl
  · rw [hbind] at hb
    cases (hm.fresh d hd).1.symm.trans hb

end Manifest

/-- What a binder makes of a schema: every source is rendered, and so is every bound resolver of an action that
templates are shipped for; for other standard actions the request is missing. -/
structure Schema.RenderedBy (s : Schema) (files : Reader) (root : Path) (b : Binder) : Prop where
  sources : ∀ e ∈ s.sources, ∀ apiName at', ∃ out, (b.renderSource files apiName at' e.1 e.2).1 = .ok out
  supplied : ∀ r ∈ s.boundResolvers, ∀ binding, r.binding = some binding → binding.action ≠ .custom →
    ShippedTemplates.IsSupplied binding.sourceKind binding.action binding.isNested →
    ∀ apiName at', ∃ out, (b.bind files apiName s.sources at' r).1 = .ok out
  missing : ∀ r ∈ s.boundResolvers, ∀ binding, r.binding = some binding → binding.action ≠ .custom →
    ¬ ShippedTemplates.IsSupplied binding.sourceKind binding.action binding.isNested →
    ∀ apiName at', let name := (TemplateKey.ofBinding binding).requestPath
      (b.bind files apiName s.sources at' r).1 = .error (.templateMissing name [root.join name])

namespace Manifest

variable {m : Manifest} {files : Reader} {root : Path} {extension : String} {b : Binder}

theorem exists_renderSource (hroot : ShippedTemplates.Installed files root)
    (hb : Binder.Later files { roots := { standard := root }, extension } b) {source : DataSource}
    (hfault : source.fault? = none) (name apiName : String) (at' : Instant) :
    ∃ out, (b.renderSource files apiName at' name source).1 = .ok out := by
  obtain ⟨v, hv⟩ := DataSource.variant?_of_fault? hfault
  have hcontext : SourceContext.of? name source = some { name, variant := v } := by
    rw [SourceContext.of?, hv, Option.map_some]
  have hkey : v.kind = .dynamo → SourceContext.hashKey? { name, variant := v } ≠ none := by
    cases v with
    | dynamo d =>
        obtain ⟨k, hk, _⟩ := DataSource.hashAttribute?_of_fault? hfault hv
        intro _ hnone
        cases hk.symm.trans hnone
    | sql | lambda =>
        intro hkind
        cases hkind
  have hpartials : (ShippedTemplates.sourceScope v.kind).partials = [] := by
    cases v <;> rfl
  obtain ⟨t, ht, hwithin⟩ := hroot.exists_load (ShippedTemplates.holdsWithin_source v.kind)
  obtain ⟨text, htext⟩ : ∃ text, t.render [] (SourceContext.document { name, variant := v } apiName at') = .ok text :=
    Template.exists_renderWithin (SourceContext.meets { name, variant := v } hkey apiName at') hpartials hwithin _
  rw [Binder.renderSource_fst, hcontext]
  simp only [SourceContext.kind, hb.sourceTemplate, ht, bind, Except.bind, Template.renderSource, htext]
  exact ⟨_, rfl⟩

theorem parse_renderedByShipped {bytes : List UInt8} (h : parse bytes = .ok m)
    (hroot : ShippedTemplates.Installed files root)
    (hb : Binder.Later files { roots := { standard := root }, extension } b) : m.resolve.RenderedBy files root b := by
  constructor
  case sources =>
    intro e he apiName at'
    rw [m.resolve_sources] at he
    exact exists_renderSource hroot hb ((of_parse_eq_ok h).2.2 e he) e.1 apiName at'
  case supplied =>
    intro r hr binding hbinding hc hs apiName at'
    obtain ⟨c, hprepare, hkey⟩ := (parse_wellRead h).exists_prepare hr hbinding hc
    rcases hroot.load_cases binding.sourceKind hc binding.isNested with ⟨_, set, hset, hwithin⟩ | ⟨hn, _⟩
    · obtain ⟨out, hout⟩ := hwithin.exists_render b.extension
        { apiName, resolver := r, binding, source := c, generatedAt := at' }
      refine ⟨out, ?_⟩
      simp only [Binder.bind_fst, hprepare, hb.templateSet, hkey, hset, bind, Except.bind, hout]
    · exact absurd hs hn
  case missing =>
    intro r hr binding hbinding hc hs apiName at'
    obtain ⟨c, hprepare, hkey⟩ := (parse_wellRead h).exists_prepare hr hbinding hc
    rcases hroot.load_cases binding.sourceKind hc binding.isNested with ⟨hn, _⟩ | ⟨_, herror⟩
    · exact absurd hn hs
    · simp only [Binder.bind_fst, hprepare, hb.templateSet, hkey, herror, bind, Except.bind]

def tableAndDatabase : String :=
  "version: v2\napiNameSuffix: zoo\nqueries:\n- name: pet\n  type: Pet\n  resolver:\n    action: get\n" ++
    "mutations:\n- name: addPet\n  type: Pet\n  resolver:\n    action: insert\n    source: records\n" ++
    "sources:\n  default:\n    dynamo:\n      hashKey: id\n  records:\n    sql:\n      primaryKey: id\n"

theorem tableAndDatabase_bound :
    (parse (Text.Utf8.encode tableAndDatabase)).toOption.map
        (·.resolve.boundResolvers.filterMap fun r => r.binding.map fun b => (b.sourceKind, b.action, b.isNested)) =
      some [(.dynamo, .get, false), (.sql, .insert, false)] := by
  rw [Text.Utf8.encode_eq_data]
  decide +kernel

theorem tableAndDatabase_renderedByShipped :
    ∃ m, parse (Text.Utf8.encode tableAndDatabase) = .ok m ∧
      (m.resolve.boundResolvers.filterMap fun r => r.binding.map fun b => (b.sourceKind, b.action, b.isNested)) =
        [(.dynamo, .get, false), (.sql, .insert, false)] ∧
      m.resolve.RenderedBy (ShippedTemplates.reader "templates") "templates"
        { roots := { standard := "templates" }, extension := "tf" } := by
  obtain ⟨m, hm, hbound⟩ := toOption_map_eq_some.mp tableAndDatabase_bound
  exact ⟨m, hm, hbound, parse_renderedByShipped hm (ShippedTemplates.installed_reader "templates") .refl⟩

end Manifest

end ApiManifest
