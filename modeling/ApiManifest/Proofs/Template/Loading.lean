import ApiManifest.Proofs.Template.Cache

/-!
# What loading and rendering fail with

Finding, reading and compiling templates have errors of their own, and so has executing them. Once a
resolver or a data source has passed its guards, rendering it fails with no others.
-/

namespace ApiManifest

variable {files : Reader} {e : RenderError}

def RenderError.isOfLoading : RenderError → Bool
  | templateMissing .. | templateSyntax .. | read _ => true
  | _ => false

/-- Is the error one of the templates, and not of the resolver, the data source or the output? -/
def RenderError.isOfTemplates : RenderError → Bool
  | unbound _ | schema _ | write _ => false
  | _ => true

theorem RenderError.isOfTemplates_of_isOfLoading (h : e.isOfLoading = true) : e.isOfTemplates = true := by
  cases e <;> first | rfl | cases h

theorem RenderError.stage_of_isOfTemplates (h : e.isOfTemplates = true) :
    e.stage = .templateMissing ∨ e.stage = .templateSelected := by
  cases e <;> simp [isOfTemplates, stage] at h ⊢

namespace TemplateRoots

theorem isOfLoading_of_readFirst {paths : List Path} (h : readFirst files paths = .error e) : e.isOfLoading = true := by
  induction paths with
  | nil => cases h
  | cons path paths ih =>
      rw [readFirst] at h
      split at h
      · split at h <;> cases h
        rfl
      · exact ih h
      · cases h
        rfl

theorem isOfLoading_of_load {roots : TemplateRoots} {name : Path} (h : roots.load files name = .error e) :
    e.isOfLoading = true := by
  rw [load, bind_eq_error] at h
  rcases h with h | ⟨found, _, h⟩
  · rw [read, bind_eq_error] at h
    rcases h with h | ⟨found, _, h⟩
    · exact isOfLoading_of_readFirst h
    · cases found <;> cases h
      rfl
  · cases hc : Template.compile found.1 found.2 <;> simp only [hc] at h <;> cases h
    rfl

end TemplateRoots

namespace TemplateSet

theorem isOfLoading_of_load {roots : TemplateRoots} {key : TemplateKey} (h : load files roots key = .error e) :
    e.isOfLoading = true := by
  simp only [load, bind_eq_error] at h
  rcases h with h | ⟨_, _, h | ⟨_, _, h | ⟨_, _, h⟩⟩⟩
  · exact TemplateRoots.isOfLoading_of_load h
  · exact TemplateRoots.isOfLoading_of_load h
  · exact TemplateRoots.isOfLoading_of_load h
  · cases h

theorem exists_of_render {s : TemplateSet} {extension : String} {c : ResolverContext}
    (h : s.render extension c = .error e) : ∃ failure, e = .templateExecution failure := by
  obtain ⟨failure, _, rfl⟩ := mapError_eq_error.mp h
  exact ⟨failure, rfl⟩

end TemplateSet

theorem Template.exists_of_renderSource {t : Template} {extension apiName : String} {at' : Instant} {c : SourceContext}
    (h : t.renderSource extension apiName at' c = .error e) : ∃ failure, e = .templateExecution failure := by
  unfold renderSource at h
  split at h <;> cases h
  exact ⟨_, rfl⟩

namespace Binder

variable {b : Binder}

theorem exists_of_prepare {sources : Dict DataSource} {r : Resolver} (h : prepare sources r = .error e) :
    e = .unbound r.display ∨ ∃ failure, e = .schema failure := by
  unfold prepare at h
  cases hb : r.binding with
  | none =>
      rw [hb] at h
      cases h
      exact .inl rfl
  | some binding =>
      simp only [hb] at h
      split at h
      · cases h
        exact .inr ⟨_, rfl⟩
      · split at h <;> cases h
        exact .inl rfl

theorem isOfLoading_of_templateSet {key : TemplateKey} (h : (b.templateSet files key).1 = .error e) :
    e.isOfLoading = true := by
  rw [templateSet_eq] at h
  have hload := load_of_fetch_error h
  exact TemplateSet.isOfLoading_of_load hload

theorem isOfLoading_of_sourceTemplate {kind : SourceKind} (h : (b.sourceTemplate files kind).1 = .error e) :
    e.isOfLoading = true := by
  rw [sourceTemplate_eq] at h
  have hload := load_of_fetch_error h
  exact TemplateRoots.isOfLoading_of_load hload

theorem isOfTemplates_of_bind {apiName : String} {sources : Dict DataSource} {at' : Instant} {r : Resolver}
    {p : Binding × SourceContext} (hp : prepare sources r = .ok p)
    (h : (b.bind files apiName sources at' r).1 = .error e) : e.isOfTemplates = true := by
  simp only [bind_fst, hp, bind_eq_error] at h
  rcases h with h | ⟨_, _, h | ⟨set, _, h⟩⟩
  · cases h
  · exact RenderError.isOfTemplates_of_isOfLoading (isOfLoading_of_templateSet h)
  · obtain ⟨failure, rfl⟩ := TemplateSet.exists_of_render h
    rfl

theorem isOfTemplates_of_renderSource {apiName name : String} {at' : Instant} {source : DataSource}
    (hk : source.kind? ≠ none) (h : (b.renderSource files apiName at' name source).1 = .error e) :
    e.isOfTemplates = true := by
  rw [renderSource_fst] at h
  rw [source.kind?_eq name] at hk
  cases hc : SourceContext.of? name source with
  | none => simp [hc] at hk
  | some c =>
      simp only [hc, bind_eq_error] at h
      rcases h with h | ⟨t, _, h⟩
      · exact RenderError.isOfTemplates_of_isOfLoading (isOfLoading_of_sourceTemplate h)
      · obtain ⟨failure, rfl⟩ := Template.exists_of_renderSource h
        rfl

end Binder

end ApiManifest
