import ApiManifest.Proofs.Generate.Accounting
import ApiManifest.Proofs.Template.Dependence
import ApiManifest.Proofs.Text.Utf8

/-!
# Generating at another time

Where no template asks for the time, a generation at another time renders and reports the same and leaves the
same behind. The templates that count are those which are there when the turn of an artifact comes: what has
been written before may have changed their files.
-/

namespace ApiManifest

/-! ## One template, one set -/

def Json.front : Json → List (String × Json)
  | .object members => members.dropLast
  | _ => []

theorem ResolverContext.exists_timed (c : ResolverContext) :
    ∃ members, ∀ i, ResolverContext.toJson { c with generatedAt := i } = Template.timed members i :=
  ⟨c.toJson.front, fun _ => rfl⟩

theorem SourceContext.exists_timed (c : SourceContext) (apiName : String) :
    ∃ members, ∀ i, c.document apiName i = Template.timed members i :=
  ⟨[("apiName", apiName), ("dataSource", c.toJson)], fun _ => rfl⟩

structure TemplateSet.Untimed (s : TemplateSet) : Prop where
  wrapper : s.wrapper.Untimed
  request : s.request.Untimed
  response : s.response.Untimed

theorem TemplateSet.Untimed.render_eq {s : TemplateSet} (hs : s.Untimed) (extension : String) (c : ResolverContext)
    (i i' : Instant) :
    s.render extension { c with generatedAt := i } = s.render extension { c with generatedAt := i' } := by
  obtain ⟨members, hmembers⟩ := c.exists_timed
  have hpartials : ∀ e ∈ s.partials, e.2.Untimed := by
    simp only [TemplateSet.partials, List.forall_mem_cons]
    exact ⟨hs.request, hs.response, nofun⟩
  simp only [TemplateSet.render, hmembers, hs.wrapper.render_eq hpartials members i i',
    hs.request.render_eq hpartials members i i', hs.response.render_eq hpartials members i i']
  rfl

theorem Template.Untimed.renderSource_eq {t : Template} (ht : t.Untimed) (extension apiName : String)
    (c : SourceContext) (i i' : Instant) : t.renderSource extension apiName i c = t.renderSource extension apiName i' c := by
  obtain ⟨members, hmembers⟩ := c.exists_timed apiName
  have hpartials : ∀ e ∈ ([] : Dict Template), e.2.Untimed := nofun
  simp only [Template.renderSource, hmembers, ht.render_eq hpartials members i i']

/-! ## Binders -/

/-- What holds of all that is kept and of what may be loaded holds of what is fetched, and of all that is kept
then. -/
theorem fetch_induction {κ α : Type} [BEq κ] {P : α → Prop} (load : κ → Except RenderError α) (key : κ)
    {kept : List (κ × α)} (hkept : ∀ e ∈ kept, P e.2) (hload : ∀ v, load key = .ok v → P v) :
    (∀ v, (fetch load key kept).1 = .ok v → P v) ∧ ∀ e ∈ (fetch load key kept).2, P e.2 := by
  unfold fetch
  cases hfirst : first? kept key with
  | some v =>
      obtain ⟨e, he, rfl⟩ := Option.map_eq_some_iff.mp hfirst
      refine ⟨fun v hv => ?_, hkept⟩
      cases hv
      exact hkept e (List.mem_of_find?_eq_some he)
  | none =>
      cases hv : load key with
      | error e => exact ⟨nofun, hkept⟩
      | ok v =>
          refine ⟨fun v' hv' => ?_, ?_⟩
          · cases hv'
            exact hload v hv
          · simp only [List.forall_mem_append, List.forall_mem_singleton]
            exact ⟨hkept, hload v hv⟩

def TemplateRoots.Untimed (roots : TemplateRoots) (names : List Path) (files : Reader) : Prop :=
  ∀ name ∈ names, ∀ t, roots.load files name = .ok t → t.Untimed

/-- No template of the tree asks for the time: no file that is one, wherever it stands. -/
def Reader.Untimed (files : Reader) : Prop :=
  ∀ path bytes cs t, files path = .ok bytes → Text.Utf8.decode? bytes = some cs →
    Template.compile path (String.ofList cs) = .ok t → t.Untimed

theorem TemplateRoots.readFirst_eq_ok {files : Reader} {paths : List Path} {path : Path} {source : String}
    (h : readFirst files paths = .ok (some (path, source))) :
    ∃ bytes cs, files path = .ok bytes ∧ Text.Utf8.decode? bytes = some cs ∧ String.ofList cs = source := by
  induction paths with
  | nil => cases h
  | cons path' paths ih =>
      rw [readFirst] at h
      split at h
      · rename_i bytes hbytes
        split at h <;> cases h
        rename_i cs hcs
        exact ⟨bytes, cs, hbytes, hcs, rfl⟩
      · exact ih h
      · cases h

theorem Reader.Untimed.load {files : Reader} (h : files.Untimed) (roots : TemplateRoots) {name : Path} {t : Template}
    (ht : roots.load files name = .ok t) : t.Untimed := by
  obtain ⟨⟨path, source⟩, hread, ht⟩ := bind_eq_ok.mp ht
  obtain ⟨found, hfirst, hfound⟩ := bind_eq_ok.mp hread
  cases found with
  | none => cases hfound
  | some found =>
      cases hfound
      obtain ⟨bytes, cs, hbytes, hcs, rfl⟩ := TemplateRoots.readFirst_eq_ok hfirst
      cases hc : Template.compile path (String.ofList cs) with
      | error e => simp [hc] at ht
      | ok t' =>
          simp only [hc] at ht
          cases ht
          exact h path bytes cs t hbytes hcs hc

theorem TemplateRoots.Untimed.load {roots : TemplateRoots} {key : TemplateKey} {files : Reader}
    (h : roots.Untimed key.templates files) {set : TemplateSet} (hset : TemplateSet.load files roots key = .ok set) :
    set.Untimed := by
  simp only [TemplateRoots.Untimed, TemplateKey.templates, List.forall_mem_cons] at h
  obtain ⟨hwrapper, hrequest, hresponse, _⟩ := h
  simp only [TemplateSet.load, bind_eq_ok, pure_eq_ok] at hset
  obtain ⟨wrapper, hw, request, hq, response, hp, rfl⟩ := hset
  exact ⟨hwrapper wrapper hw, hrequest request hq, hresponse response hp⟩

namespace Binder

structure Untimed (b : Binder) : Prop where
  sets : ∀ e ∈ b.sets, e.2.Untimed
  sources : ∀ e ∈ b.sources, e.2.Untimed

variable {b : Binder} {files : Reader}

theorem Untimed.templateSet (hb : b.Untimed) {key : TemplateKey} (h : b.roots.Untimed key.templates files) :
    (∀ set, (b.templateSet files key).1 = .ok set → set.Untimed) ∧ (b.templateSet files key).2.Untimed := by
  rw [templateSet_eq]
  have hfetch := fetch_induction (TemplateSet.load files b.roots) key hb.sets fun _ hset => h.load hset
  exact ⟨hfetch.1, hfetch.2, hb.sources⟩

theorem Untimed.sourceTemplate (hb : b.Untimed) {kind : SourceKind} (h : b.roots.Untimed [kind.templatePath] files) :
    (∀ t, (b.sourceTemplate files kind).1 = .ok t → t.Untimed) ∧ (b.sourceTemplate files kind).2.Untimed := by
  rw [sourceTemplate_eq]
  have hfetch := fetch_induction (fun k : SourceKind => b.roots.load files k.templatePath) kind hb.sources
    (h kind.templatePath (List.mem_singleton_self _))
  exact ⟨hfetch.1, hb.sets, hfetch.2⟩

theorem bind_eq_of_forall {α β : Type} {x : Except RenderError α} {f f' : α → Except RenderError β}
    (h : ∀ a, x = .ok a → f a = f' a) : x.bind f = x.bind f' := by
  cases x with
  | error e => rfl
  | ok a => exact h a rfl

theorem Untimed.bind_eq (hb : b.Untimed) {r : Resolver}
    (h : ∀ binding, r.binding = some binding → b.roots.Untimed (TemplateKey.ofBinding binding).templates files)
    (apiName : String) (sources : Dict DataSource) (i i' : Instant) :
    b.bind files apiName sources i r = b.bind files apiName sources i' r ∧
      (b.bind files apiName sources i r).2.Untimed := by
  unfold bind
  cases hp : prepare sources r with
  | error e => exact ⟨rfl, hb⟩
  | ok prepared =>
      obtain ⟨binding, source⟩ := prepared
      obtain ⟨hset, hrest⟩ := hb.templateSet (h binding (prepare_binding hp))
      refine ⟨Prod.ext (bind_eq_of_forall fun set hload => ?_) rfl, hrest⟩
      exact (hset set hload).render_eq _ ⟨apiName, r, binding, source, i⟩ i i'

theorem Untimed.renderSource_eq (hb : b.Untimed) {source : DataSource}
    (h : ∀ kind, source.kind? = some kind → b.roots.Untimed [kind.templatePath] files) (apiName name : String)
    (i i' : Instant) :
    b.renderSource files apiName i name source = b.renderSource files apiName i' name source ∧
      (b.renderSource files apiName i name source).2.Untimed := by
  unfold renderSource
  cases hc : SourceContext.of? name source with
  | none => exact ⟨rfl, hb⟩
  | some c =>
      have hkind : source.kind? = some c.kind := by rw [source.kind?_eq name, hc, Option.map_some]
      obtain ⟨ht, hrest⟩ := hb.sourceTemplate (h c.kind hkind)
      exact ⟨Prod.ext (bind_eq_of_forall fun t hload => (ht t hload).renderSource_eq _ _ c i i') rfl, hrest⟩

end Binder

/-! ## Whole runs -/

variable {σ : Type} {g : Generation} {sink : Sink σ} {b : Binder} {stored : σ}

theorem Artifact.render_untimed {a : Artifact} {files : Reader} (hb : b.Untimed) (h : b.roots.Untimed a.templates files)
    (i : Instant) :
    a.render { g with generatedAt := i } files b = a.render g files b ∧ (a.render g files b).2.Untimed := by
  cases a with
  | schema => exact ⟨rfl, hb⟩
  | resolver r =>
      have ht : ∀ binding, r.binding = some binding →
          b.roots.Untimed (TemplateKey.ofBinding binding).templates files := by
        intro binding hr
        simp only [Artifact.templates, hr] at h
        exact h
      obtain ⟨heq, hrest⟩ := hb.bind_eq ht g.schema.apiName g.schema.sources g.generatedAt i
      simp only [Artifact.render, ← heq, true_and]
      exact hrest
  | source name declaration =>
      have ht : ∀ kind, declaration.kind? = some kind → b.roots.Untimed [kind.templatePath] files := by
        intro kind hk
        simp only [Artifact.templates, hk, Option.map_some, Option.toList_some] at h
        exact h
      obtain ⟨heq, hrest⟩ := hb.renderSource_eq ht g.schema.apiName name g.generatedAt i
      simp only [Artifact.render, ← heq, true_and]
      exact hrest

namespace Generation

/-- Whenever the turn of an artifact comes, none of its templates that can be loaded asks for the time. -/
def TemplatesUntimed (g : Generation) (sink : Sink σ) : List Artifact → Binder → σ → Prop
  | [], _, _ => True
  | a :: as, b, stored =>
    b.roots.Untimed a.templates (sink.files stored) ∧
      g.TemplatesUntimed sink as (a.render g (sink.files stored) b).2
        ((a.render g (sink.files stored) b).1.store sink stored).2

theorem templatesUntimed_of_stay {files : Reader} {order : List Artifact}
    (hstay : g.TemplatesStay sink files order b stored) (h : files.Untimed) : g.TemplatesUntimed sink order b stored := by
  induction order generalizing b stored with
  | nil => trivial
  | cons a as ih => exact ⟨fun name hname t ht => h.load b.roots (hstay.1.load hname ▸ ht), ih hstay.2⟩

theorem renderings_untimed {order : List Artifact} (hb : b.Untimed) (h : g.TemplatesUntimed sink order b stored)
    (i : Instant) :
    Generation.renderings { g with generatedAt := i } sink order b stored = g.renderings sink order b stored := by
  induction order generalizing b stored with
  | nil => rfl
  | cons a as ih =>
      obtain ⟨hturn, hlater⟩ := h
      obtain ⟨heq, hrest⟩ := a.render_untimed (g := g) hb hturn i
      simp only [renderings, heq, ih hrest hlater]

/-- Where no template asks for the time, the artifacts of a generation, taken in any order, are rendered alike at
any other time, with the same results and the same left behind; so the reports are the same. -/
theorem run_untimed (hb : b.Untimed) {order : List Artifact} (h : g.TemplatesUntimed sink order b stored) (i : Instant) :
    let g' : Generation := { g with generatedAt := i }
    g'.renderings sink order b stored = g.renderings sink order b stored ∧
      g'.results sink order b stored = g.results sink order b stored ∧
      (order = g.schema.artifacts → g'.run b sink stored = g.run b sink stored) := by
  intro g'
  have hrenderings := renderings_untimed hb h i
  have hresults : g'.results sink order b stored = g.results sink order b stored := by
    rw [results_eq_deliver, results_eq_deliver, hrenderings]
  refine ⟨hrenderings, hresults, ?_⟩
  rintro rfl
  simp only [run, hresults, g']

def parentKeyOrName : String :=
  "\x7b\x7b#if isNested\x7d\x7d\x7b\x7b parentKey \x7d\x7d\x7b\x7b/if\x7d\x7d\x7b\x7b dataSource.name \x7d\x7d"

def parentKeyOrNameOnly : Reader := fun _ => .ok (Text.Utf8.encode parentKeyOrName)

theorem parentKeyOrNameOnly_untimed : parentKeyOrNameOnly.Untimed := by
  intro path bytes cs t hbytes hcs ht
  cases hbytes
  rw [Text.Utf8.decode?_encode] at hcs
  cases hcs
  rw [String.ofList_toList] at ht
  obtain ⟨nodes, hnodes, rfl⟩ := map_eq_ok.mp ht
  have check : (Template.parse parentKeyOrName).toOption.map (fun nodes =>
      decide (Template.Untimed { name := "", nodes })) = some true := by
    decide +kernel
  obtain ⟨nodes', hnodes', huntimed⟩ := toOption_map_eq_some.mp check
  cases hnodes.symm.trans hnodes'
  have h := of_decide_eq_true huntimed
  exact h

/-- One query and its data source are rendered with these files, whatever the time. -/
theorem oneQuery_untimed :
    ∃ m, Manifest.parse (Text.Utf8.encode oneQuery) = .ok m ∧
      let b : Binder := { roots := { standard := "standard" }, extension := "tf" }
      let run (i : Instant) := Generation.run { schema := m.resolve, generatedAt := i } b (.memory parentKeyOrNameOnly) []
      (run {}).1.isSuccess = true ∧ ∀ i, run i = run {} := by
  have check : (Manifest.parse (Text.Utf8.encode oneQuery)).toOption.map (fun m =>
      let b : Binder := { roots := { standard := "standard" }, extension := "tf" }
      (Generation.run { schema := m.resolve, generatedAt := {} } b (.memory parentKeyOrNameOnly) []).1.isSuccess) =
        some true := by
    decide +kernel
  obtain ⟨m, hm, hsuccess⟩ := toOption_map_eq_some.mp check
  refine ⟨m, hm, hsuccess, fun i => ?_⟩
  let b : Binder := { roots := { standard := "standard" }, extension := "tf" }
  let g : Generation := { schema := m.resolve, generatedAt := {} }
  have hstay : g.TemplatesStay (.memory parentKeyOrNameOnly) parentKeyOrNameOnly m.resolve.artifacts b [] :=
    templatesStay_of_files (fun _ => rfl) _ _ _
  have huntimed := templatesUntimed_of_stay hstay parentKeyOrNameOnly_untimed
  exact (run_untimed ⟨by simp [b], by simp [b]⟩ huntimed i).2.2 rfl

end Generation

end ApiManifest
