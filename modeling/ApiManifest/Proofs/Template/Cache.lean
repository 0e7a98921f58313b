import ApiManifest.Proofs.Dict
import ApiManifest.Proofs.Except
import ApiManifest.Template.Binder

/-!
# Kept templates

A binder keeps what it has loaded. As long as the files of its templates read the same, what it has
rendered before makes no difference to what it renders next.
-/

namespace ApiManifest

variable {files files' : Reader}

/-! ## Stores of what has been loaded -/

section

variable {κ α : Type} [BEq κ]

def first? (es : List (κ × α)) (key : κ) : Option α :=
  (es.find? fun e => e.1 == key).map (·.2)

def fetch (load : κ → Except RenderError α) (key : κ) (kept : List (κ × α)) : Except RenderError α × List (κ × α) :=
  match first? kept key with
  | some v => (.ok v, kept)
  | none =>
    match load key with
    | .ok v => (.ok v, kept ++ [(key, v)])
    | .error e => (.error e, kept)

theorem fetch_fst (load : κ → Except RenderError α) (key : κ) (kept : List (κ × α)) :
    (fetch load key kept).1 = ((first? kept key).map .ok).getD (load key) := by
  unfold fetch
  cases first? kept key with
  | some v => rfl
  | none => cases load key <;> rfl

theorem load_of_fetch_error {load : κ → Except RenderError α} {key : κ} {kept : List (κ × α)} {e : RenderError}
    (h : (fetch load key kept).1 = .error e) : load key = .error e := by
  rw [fetch_fst] at h
  cases hk : first? kept key with
  | some v => simp [hk] at h
  | none => simpa [hk] using h

theorem fetch_snd_of_error {load : κ → Except RenderError α} {key : κ} {kept : List (κ × α)} {e : RenderError}
    (h : (fetch load key kept).1 = .error e) : (fetch load key kept).2 = kept := by
  unfold fetch
  cases first? kept key with
  | some v => rfl
  | none => simp only [load_of_fetch_error h]

theorem first?_append (es more : List (κ × α)) (key : κ) :
    first? (es ++ more) key = (first? es key).or (first? more key) := by
  rw [first?, List.find?_append, Option.map_or]
  rfl

theorem first?_singleton {key key' : κ} {v : α} : first? [(key, v)] key' = if key == key' then some v else none := by
  cases h : key == key' <;> simp [first?, h]

variable [LawfulBEq κ]

theorem first?_eq_none {es : List (κ × α)} {key : κ} : first? es key = none ↔ key ∉ es.map (·.1) := by
  simp only [first?, Option.map_eq_none_iff, List.find?_eq_none, beq_iff_eq, List.mem_map, not_exists, not_and]

/-- Keeping what has been loaded makes no difference to what is found or else loaded. -/
theorem fetch_fetch_fst (load : κ → Except RenderError α) (key key' : κ) (kept : List (κ × α)) :
    (fetch load key' (fetch load key kept).2).1 = (fetch load key' kept).1 := by
  rw [fetch_fst, fetch_fst, fetch]
  cases hk : first? kept key with
  | some v => rfl
  | none =>
      cases hl : load key with
      | error e => rfl
      | ok v =>
          simp only [first?_append, first?_singleton]
          cases first? kept key' with
          | some v' => rfl
          | none =>
              -- only the new key finds what is new
              cases h : key == key' with
              | true =>
                  rw [beq_iff_eq] at h
                  subst h
                  simp [hl]
              | false => simp

end

/-! ## Files that read the same -/

namespace TemplateRoots

/-- The two readers find the same wherever the templates of these names are looked for. -/
def Agree (roots : TemplateRoots) (names : List Path) (files files' : Reader) : Prop :=
  ∀ name ∈ names, ∀ path ∈ roots.candidates name, files path = files' path

theorem Agree.refl (roots : TemplateRoots) (names : List Path) (files : Reader) :
    roots.Agree names files files :=
  fun _ _ _ _ => rfl

theorem readFirst_congr {paths : List Path} (h : ∀ path ∈ paths, files path = files' path) :
    readFirst files paths = readFirst files' paths := by
  induction paths with
  | nil => rfl
  | cons path paths ih =>
      have hrest := ih fun p hp => h p (List.mem_cons_of_mem _ hp)
      simp only [readFirst, h path List.mem_cons_self, hrest]

theorem Agree.load {roots : TemplateRoots} {names : List Path} (h : roots.Agree names files files')
    {name : Path} (hn : name ∈ names) : roots.load files name = roots.load files' name := by
  simp only [TemplateRoots.load, TemplateRoots.read, readFirst_congr (h name hn)]

end TemplateRoots

def TemplateKey.templates (key : TemplateKey) : List Path :=
  [wrapperPath, key.requestPath, key.responsePath]

theorem TemplateSet.load_congr {roots : TemplateRoots} {key : TemplateKey}
    (h : roots.Agree key.templates files files') :
    TemplateSet.load files roots key = TemplateSet.load files' roots key := by
  have hload : ∀ name ∈ key.templates, roots.load files name = roots.load files' name := fun _ hn => h.load hn
  simp only [TemplateKey.templates, List.forall_mem_cons] at hload
  obtain ⟨hwrapper, hrequest, hresponse, _⟩ := hload
  simp only [TemplateSet.load, hwrapper, hrequest, hresponse]

theorem DataSource.kind?_eq (name : String) (source : DataSource) :
    source.kind? = (SourceContext.of? name source).map SourceContext.kind := by
  simp only [kind?, SourceContext.of?, Option.map_map]
  rfl

namespace Binder

variable {b b' : Binder}

theorem templateSet_eq (files : Reader) (key : TemplateKey) (b : Binder) :
    b.templateSet files key =
      ((fetch (TemplateSet.load files b.roots) key b.sets).1,
        { b with sets := (fetch (TemplateSet.load files b.roots) key b.sets).2 }) := by
  unfold templateSet fetch
  rw [cachedSet?, ← first?]
  cases first? b.sets key with
  | some set => rfl
  | none => cases TemplateSet.load files b.roots key <;> rfl

theorem sourceTemplate_eq (files : Reader) (kind : SourceKind) (b : Binder) :
    b.sourceTemplate files kind =
      ((fetch (fun k : SourceKind => b.roots.load files k.templatePath) kind b.sources).1,
        { b with sources := (fetch (fun k : SourceKind => b.roots.load files k.templatePath) kind b.sources).2 }) := by
  unfold sourceTemplate fetch
  dsimp only
  rw [cachedSource?, ← first?]
  cases first? b.sources kind with
  | some t => rfl
  | none => cases b.roots.load files kind.templatePath <;> rfl

/-- What rendering a resolver comes to, as its guards and its templates have it. -/
theorem bind_fst (files : Reader) (apiName : String) (sources : Dict DataSource) (at' : Instant) (r : Resolver)
    (b : Binder) :
    (b.bind files apiName sources at' r).1 = (do
      let (binding, source) ← prepare sources r
      let set ← (b.templateSet files (.ofBinding binding)).1
      set.render b.extension { apiName, resolver := r, binding, source, generatedAt := at' }) := by
  unfold bind
  cases prepare sources r with
  | error e => rfl
  | ok p =>
      simp only [templateSet_eq]
      rfl

theorem renderSource_fst (files : Reader) (apiName : String) (at' : Instant) (name : String) (source : DataSource)
    (b : Binder) :
    (b.renderSource files apiName at' name source).1 =
      match SourceContext.of? name source with
      | none => .error (.unbound name)
      | some c => (do
        let t ← (b.sourceTemplate files c.kind).1
        t.renderSource b.extension apiName at' c) := by
  unfold renderSource
  cases SourceContext.of? name source with
  | none => rfl
  | some c =>
      simp only [sourceTemplate_eq]
      rfl

theorem templateSet_congr {key : TemplateKey} (h : b.roots.Agree key.templates files files') :
    b.templateSet files key = b.templateSet files' key := by
  simp only [templateSet, TemplateSet.load_congr h]

theorem sourceTemplate_congr {kind : SourceKind} (h : b.roots.Agree [kind.templatePath] files files') :
    b.sourceTemplate files kind = b.sourceTemplate files' kind := by
  simp only [sourceTemplate, h.load (List.mem_singleton_self _)]

theorem prepare_binding {sources : Dict DataSource} {r : Resolver} {binding : Binding} {c : SourceContext}
    (h : prepare sources r = .ok (binding, c)) : r.binding = some binding := by
  unfold prepare at h
  cases hb : r.binding with
  | none =>
      rw [hb] at h
      cases h
  | some b' =>
      simp only [hb] at h
      split at h
      · cases h
      · split at h
        · cases h
        · cases h
          rfl

theorem bind_congr {apiName : String} {sources : Dict DataSource} {at' : Instant} {r : Resolver}
    (h : ∀ binding, r.binding = some binding → b.roots.Agree (TemplateKey.ofBinding binding).templates files files') :
    b.bind files apiName sources at' r = b.bind files' apiName sources at' r := by
  unfold bind
  cases hp : prepare sources r with
  | error e => rfl
  | ok prepared => simp only [templateSet_congr (h prepared.1 (prepare_binding hp))]

theorem renderSource_congr {apiName : String} {at' : Instant} {name : String} {source : DataSource}
    (h : ∀ kind, source.kind? = some kind → b.roots.Agree [kind.templatePath] files files') :
    b.renderSource files apiName at' name source = b.renderSource files' apiName at' name source := by
  unfold renderSource
  cases hc : SourceContext.of? name source with
  | none => rfl
  | some c =>
      have hkind : source.kind? = some c.kind := by rw [source.kind?_eq name, hc, Option.map_some]
      simp only [sourceTemplate_congr (h c.kind hkind)]

/-! ## Binders that have gone on -/

structure Like (files : Reader) (b b' : Binder) : Prop where
  roots : b'.roots = b.roots
  extension : b'.extension = b.extension
  sets : ∀ key, (b'.templateSet files key).1 = (b.templateSet files key).1
  sources : ∀ kind, (b'.sourceTemplate files kind).1 = (b.sourceTemplate files kind).1

theorem Like.refl (files : Reader) (b : Binder) : Like files b b :=
  ⟨rfl, rfl, fun _ => rfl, fun _ => rfl⟩

theorem Like.symm (h : Like files b b') : Like files b' b :=
  ⟨h.roots.symm, h.extension.symm, fun key => (h.sets key).symm, fun kind => (h.sources kind).symm⟩

theorem Like.trans {b'' : Binder} (h : Like files b b') (h' : Like files b' b'') : Like files b b'' :=
  ⟨h'.roots.trans h.roots, h'.extension.trans h.extension, fun key => (h'.sets key).trans (h.sets key),
    fun kind => (h'.sources kind).trans (h.sources kind)⟩

theorem like_templateSet (files : Reader) (key : TemplateKey) (b : Binder) :
    Like files b (b.templateSet files key).2 := by
  rw [templateSet_eq]
  refine ⟨rfl, rfl, fun key' => ?_, fun kind => by simp only [sourceTemplate_eq]⟩
  rw [templateSet_eq, templateSet_eq]
  exact fetch_fetch_fst _ key key' b.sets

theorem like_sourceTemplate (files : Reader) (kind : SourceKind) (b : Binder) :
    Like files b (b.sourceTemplate files kind).2 := by
  rw [sourceTemplate_eq]
  refine ⟨rfl, rfl, fun key => by simp only [templateSet_eq], fun kind' => ?_⟩
  rw [sourceTemplate_eq, sourceTemplate_eq]
  exact fetch_fetch_fst _ kind kind' b.sources

theorem like_bind (files : Reader) (apiName : String) (sources : Dict DataSource) (at' : Instant) (r : Resolver)
    (b : Binder) : Like files b (b.bind files apiName sources at' r).2 := by
  unfold bind
  cases prepare sources r with
  | error e => exact .refl files b
  | ok prepared => exact like_templateSet files _ b

theorem like_renderSource (files : Reader) (apiName : String) (at' : Instant) (name : String) (source : DataSource)
    (b : Binder) : Like files b (b.renderSource files apiName at' name source).2 := by
  unfold renderSource
  cases SourceContext.of? name source with
  | none => exact .refl files b
  | some c => exact like_sourceTemplate files c.kind b

theorem Like.bind (h : Like files b b') (apiName : String) (sources : Dict DataSource) (at' : Instant) (r : Resolver) :
    (b'.bind files apiName sources at' r).1 = (b.bind files apiName sources at' r).1 := by
  simp only [bind_fst, h.sets, h.extension]

theorem Like.renderSource (h : Like files b b') (apiName : String) (at' : Instant) (name : String)
    (source : DataSource) :
    (b'.renderSource files apiName at' name source).1 = (b.renderSource files apiName at' name source).1 := by
  simp only [renderSource_fst, h.sources, h.extension]

end Binder

end ApiManifest
