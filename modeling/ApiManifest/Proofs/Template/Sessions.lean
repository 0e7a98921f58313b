import ApiManifest.Proofs.Template.Cache
import ApiManifest.Proofs.Template.Loading

/-!
# Sessions of a binder

While files change, a binder renders with the templates as they were when it first loaded them. Each of
its two stores keeps, under every key that has been loaded, what the first load gave: `Keeps` holds at the
start, a step keeps it, and so does a run.
-/

namespace ApiManifest

structure Session where
  tree : FileTree
  binder : Binder

inductive Session.Step where
  | edit (change : FileTree → FileTree)
  | bind (apiName : String) (sources : Dict DataSource) (generatedAt : Instant) (resolver : Resolver)
  | renderSource (apiName : String) (generatedAt : Instant) (name : String) (source : DataSource)

namespace Session

def step (s : Session) : Step → Session
  | .edit change => { s with tree := change s.tree }
  | .bind apiName sources at' r => { s with binder := (s.binder.bind s.tree.read apiName sources at' r).2 }
  | .renderSource apiName at' name source =>
    { s with binder := (s.binder.renderSource s.tree.read apiName at' name source).2 }

def run (s : Session) (steps : List Step) : Session :=
  steps.foldl step s

def Fails (s : Session) (e : RenderError) : Step → Prop
  | .edit _ => False
  | .bind apiName sources at' r => (s.binder.bind s.tree.read apiName sources at' r).1 = .error e
  | .renderSource apiName at' name source =>
    (s.binder.renderSource s.tree.read apiName at' name source).1 = .error e

def loadedSet? (s : Session) : Step → Option TemplateKey
  | .bind _ sources _ r =>
    (Binder.prepare sources r).toOption.bind fun p =>
      (s.binder.templateSet s.tree.read (.ofBinding p.1)).1.toOption.map fun _ => .ofBinding p.1
  | _ => none

def loadedSource? (s : Session) : Step → Option SourceKind
  | .renderSource _ _ name source =>
    (SourceContext.of? name source).bind fun c =>
      (s.binder.sourceTemplate s.tree.read c.kind).1.toOption.map fun _ => c.kind
  | _ => none

/-! ## What is kept -/

variable {κ α : Type}

/-- The keys that are loaded in the course of the steps, each with the files as they stand then. -/
def loads (loaded? : Session → Step → Option κ) (s : Session) : List Step → List (κ × FileTree)
  | [] => []
  | next :: steps =>
    ((loaded? s next).map fun key => (key, s.tree)).toList ++ (s.step next).loads loaded? steps

variable [BEq κ]

/-- Under each key that has been loaded is kept what the first load gave, and nothing else is kept. -/
structure Keeps (load : FileTree → κ → Except RenderError α) (loads : List (κ × FileTree)) (kept : List (κ × α)) :
    Prop where
  keys : kept.map (·.1) = (loads.map (·.1)).eraseDups
  values : ∀ key v, first? kept key = some v → ∃ tree, first? loads key = some tree ∧ load tree key = .ok v

namespace Keeps

variable {load : FileTree → κ → Except RenderError α} {loads : List (κ × FileTree)} {kept : List (κ × α)} {key : κ}
  {tree : FileTree} {v : α}

theorem nil : Keeps load [] [] :=
  ⟨by simp, fun _ _ h => nomatch h⟩

variable [LawfulBEq κ]

theorem first?_eq_none (h : Keeps load loads kept) : first? kept key = none ↔ first? loads key = none := by
  rw [ApiManifest.first?_eq_none, ApiManifest.first?_eq_none, h.keys, List.mem_eraseDups]

theorem again (h : Keeps load loads kept) (hk : first? kept key = some v) : Keeps load (loads ++ [(key, tree)]) kept := by
  constructor
  · -- what is kept has been loaded, so the key is not a new one
    have hmem : key ∈ loads.map (·.1) := by
      refine Classical.byContradiction fun hn => ?_
      rw [h.first?_eq_none.mpr (ApiManifest.first?_eq_none.mpr hn)] at hk
      cases hk
    rw [h.keys, List.map_append, List.eraseDups_append]
    simp [List.removeAll, hmem]
  · intro key' v' hk'
    obtain ⟨tree', hfirst, hload⟩ := h.values key' v' hk'
    exact ⟨tree', by rw [first?_append, hfirst, Option.some_or], hload⟩

theorem first (h : Keeps load loads kept) (hk : first? kept key = none) (hl : load tree key = .ok v) :
    Keeps load (loads ++ [(key, tree)]) (kept ++ [(key, v)]) := by
  have hnone := h.first?_eq_none.mp hk
  constructor
  · have hmem : key ∉ loads.map (·.1) := ApiManifest.first?_eq_none.mp hnone
    rw [List.map_append, List.map_append, List.eraseDups_append, ← h.keys]
    simp [List.removeAll, hmem, List.eraseDups_cons]
  · intro key' v' hk'
    rw [first?_append] at hk'
    rw [first?_append]
    cases hold : first? kept key' with
    | some v'' =>
        obtain ⟨tree', hfirst, hload⟩ := h.values key' v'' hold
        rw [hold, Option.some_or] at hk'
        cases hk'
        exact ⟨tree', by rw [hfirst, Option.some_or], hload⟩
    | none =>
        -- only the new key finds what is new
        have hfound : key = key' ∧ v = v' := by simpa [hold, first?_singleton] using hk'
        obtain ⟨rfl, rfl⟩ := hfound
        exact ⟨tree, by simp [hnone, first?_singleton], hl⟩

theorem fetch (h : Keeps load loads kept) (tree : FileTree) (key : κ) :
    Keeps load (loads ++ ((ApiManifest.fetch (load tree) key kept).1.toOption.map fun _ => (key, tree)).toList)
      (ApiManifest.fetch (load tree) key kept).2 := by
  unfold ApiManifest.fetch
  cases hk : first? kept key with
  | some v => exact h.again hk
  | none =>
      cases hl : load tree key with
      | ok v => exact h.first hk hl
      | error e => simpa [Except.toOption] using h

theorem fetch_fst (h : Keeps load loads kept) (tree : FileTree) (key : κ) :
    (ApiManifest.fetch (load tree) key kept).1 = load ((first? loads key).getD tree) key := by
  rw [ApiManifest.fetch_fst]
  cases hk : first? kept key with
  | some v =>
      obtain ⟨tree', hfirst, hload⟩ := h.values key v hk
      simp [hfirst, hload]
  | none => simp [h.first?_eq_none.mp hk]

end Keeps

/-! ## One step, and a run -/

def loadSet (roots : TemplateRoots) (tree : FileTree) (key : TemplateKey) : Except RenderError TemplateSet :=
  TemplateSet.load tree.read roots key

def loadSource (roots : TemplateRoots) (tree : FileTree) (kind : SourceKind) : Except RenderError Template :=
  roots.load tree.read kind.templatePath

theorem step_settings (s : Session) (next : Step) :
    (s.step next).binder.roots = s.binder.roots ∧ (s.step next).binder.extension = s.binder.extension := by
  cases next with
  | edit change => exact ⟨rfl, rfl⟩
  | bind apiName sources at' r =>
      have h := s.binder.like_bind s.tree.read apiName sources at' r
      exact ⟨h.roots, h.extension⟩
  | renderSource apiName at' name source =>
      have h := s.binder.like_renderSource s.tree.read apiName at' name source
      exact ⟨h.roots, h.extension⟩

theorem run_settings (s : Session) (steps : List Step) :
    (s.run steps).binder.roots = s.binder.roots ∧ (s.run steps).binder.extension = s.binder.extension := by
  induction steps generalizing s with
  | nil => exact ⟨rfl, rfl⟩
  | cons next steps ih =>
      have hstep := s.step_settings next
      have hrun := ih (s.step next)
      exact ⟨hrun.1.trans hstep.1, hrun.2.trans hstep.2⟩

theorem step_keeps_sets {s : Session} {loads : List (TemplateKey × FileTree)}
    (h : Keeps (loadSet s.binder.roots) loads s.binder.sets) (next : Step) :
    Keeps (loadSet s.binder.roots) (loads ++ ((s.loadedSet? next).map fun key => (key, s.tree)).toList)
      (s.step next).binder.sets := by
  cases next with
  | edit change => simpa [step, loadedSet?] using h
  | renderSource apiName at' name source =>
      have hsets : (s.binder.renderSource s.tree.read apiName at' name source).2.sets = s.binder.sets := by
        unfold Binder.renderSource
        cases SourceContext.of? name source with
        | none => rfl
        | some c => simp only [Binder.sourceTemplate_eq]
      simpa [step, loadedSet?, hsets] using h
  | bind apiName sources at' r =>
      simp only [step, loadedSet?, Binder.bind]
      -- a resolver that its guards stop does not get as far as its templates
      cases Binder.prepare sources r with
      | error e => simpa [Except.toOption] using h
      | ok p =>
          simp only [Binder.templateSet_eq, Except.toOption, Option.bind_some, Option.map_map]
          exact h.fetch s.tree (.ofBinding p.1)

theorem step_keeps_sources {s : Session} {loads : List (SourceKind × FileTree)}
    (h : Keeps (loadSource s.binder.roots) loads s.binder.sources) (next : Step) :
    Keeps (loadSource s.binder.roots) (loads ++ ((s.loadedSource? next).map fun kind => (kind, s.tree)).toList)
      (s.step next).binder.sources := by
  cases next with
  | edit change => simpa [step, loadedSource?] using h
  | bind apiName sources at' r =>
      have hsources : (s.binder.bind s.tree.read apiName sources at' r).2.sources = s.binder.sources := by
        unfold Binder.bind
        cases Binder.prepare sources r with
        | error e => rfl
        | ok p => simp only [Binder.templateSet_eq]
      simpa [step, loadedSource?, hsources] using h
  | renderSource apiName at' name source =>
      simp only [step, loadedSource?, Binder.renderSource]
      cases SourceContext.of? name source with
      | none => simpa using h
      | some c =>
          simp only [Binder.sourceTemplate_eq, Option.bind_some, Option.map_map]
          exact h.fetch s.tree c.kind

/-- What each step keeps, a run keeps. -/
theorem Keeps.run {load : TemplateRoots → FileTree → κ → Except RenderError α} {kept : Session → List (κ × α)}
    {loaded? : Session → Step → Option κ}
    (hstep : ∀ {s : Session} {before : List (κ × FileTree)}, Keeps (load s.binder.roots) before (kept s) → ∀ next,
      Keeps (load s.binder.roots) (before ++ ((loaded? s next).map fun key => (key, s.tree)).toList) (kept (s.step next)))
    {s : Session} {before : List (κ × FileTree)} (h : Keeps (load s.binder.roots) before (kept s)) (steps : List Step) :
    Keeps (load s.binder.roots) (before ++ s.loads loaded? steps) (kept (s.run steps)) := by
  induction steps generalizing s before with
  | nil => simpa [Session.loads, Session.run] using h
  | cons next steps ih =>
      -- the step keeps the roots too, so that what is kept comes from the same loads before and after it
      have hroots := (s.step_settings next).1
      have hrun := ih (hroots ▸ hstep h next)
      rw [hroots, List.append_assoc] at hrun
      exact hrun

/-! ## What is taken -/

variable {b fresh : Binder}

theorem templateSet_of_keeps {loads : List (TemplateKey × FileTree)} (hroots : b.roots = fresh.roots)
    (hfresh : fresh.sets = []) (h : Keeps (loadSet fresh.roots) loads b.sets) (tree : FileTree) (key : TemplateKey) :
    (b.templateSet tree.read key).1 = (fresh.templateSet ((first? loads key).getD tree).read key).1 := by
  rw [Binder.templateSet_eq, Binder.templateSet_eq, hroots, hfresh]
  exact (h.fetch_fst tree key).trans (Keeps.nil.fetch_fst _ key).symm

theorem sourceTemplate_of_keeps {loads : List (SourceKind × FileTree)} (hroots : b.roots = fresh.roots)
    (hfresh : fresh.sources = []) (h : Keeps (loadSource fresh.roots) loads b.sources) (tree : FileTree)
    (kind : SourceKind) :
    (b.sourceTemplate tree.read kind).1 = (fresh.sourceTemplate ((first? loads kind).getD tree).read kind).1 := by
  rw [Binder.sourceTemplate_eq, Binder.sourceTemplate_eq, hroots, hfresh]
  exact (h.fetch_fst tree kind).trans (Keeps.nil.fetch_fst _ kind).symm

/-! ## Failing, before the templates are taken and after -/

theorem step_binder_of_fails {s : Session} {next : Step} {e : RenderError} (h : s.Fails e next)
    (hne : ∀ failure, e ≠ .templateExecution failure) : (s.step next).binder = s.binder := by
  cases next with
  | edit change => rfl
  | bind apiName sources at' r =>
      simp only [Fails, Binder.bind_fst, bind_eq_error] at h
      rcases h with hp | ⟨p, hp, ht | ⟨set, _, hr⟩⟩
      · simp only [step, Binder.bind, hp]
      · rw [Binder.templateSet_eq] at ht
        simp only [step, Binder.bind, hp, Binder.templateSet_eq, fetch_snd_of_error ht]
      · obtain ⟨failure, rfl⟩ := TemplateSet.exists_of_render hr
        exact absurd rfl (hne failure)
  | renderSource apiName at' name source =>
      simp only [Fails, Binder.renderSource_fst] at h
      cases hc : SourceContext.of? name source with
      | none => simp only [step, Binder.renderSource, hc]
      | some c =>
          simp only [hc, bind_eq_error] at h
          rcases h with ht | ⟨t, _, hr⟩
          · rw [Binder.sourceTemplate_eq] at ht
            simp only [step, Binder.renderSource, hc, Binder.sourceTemplate_eq, fetch_snd_of_error ht]
          · obtain ⟨failure, rfl⟩ := Template.exists_of_renderSource hr
            exact absurd rfl (hne failure)

omit [BEq κ] in
/-- Of two phases that fail in different ways, the first has been gone through just if there is no failure
but the second one's. -/
theorem executed_iff {x : Except RenderError α} {β : Type} {f : α → Except RenderError β}
    (hx : ∀ e, x = .error e → e.isOfLoading = true)
    (hf : ∀ a e, f a = .error e → ∃ failure, e = .templateExecution failure) (key : κ) :
    (x.toOption.map fun _ => key) = some key ↔ ∀ e, x >>= f = .error e → ∃ failure, e = .templateExecution failure := by
  cases x with
  | error e =>
      have hne : ¬∃ failure, e = .templateExecution failure := by
        rintro ⟨failure, rfl⟩
        exact nomatch hx _ rfl
      simpa [Except.toOption, bind, Except.bind] using hne
  | ok a => simpa [Except.toOption, bind, Except.bind] using hf a

theorem loadedSet?_iff {s : Session} {apiName : String} {sources : Dict DataSource} {at' : Instant} {r : Resolver}
    {binding : Binding} (hb : r.binding = some binding) :
    s.loadedSet? (.bind apiName sources at' r) = some (.ofBinding binding) ↔
      ∀ e, s.Fails e (.bind apiName sources at' r) → ∃ failure, e = .templateExecution failure := by
  simp only [loadedSet?, Fails, Binder.bind_fst]
  cases hp : Binder.prepare sources r with
  | error e =>
      have hne : ¬∃ failure, e = .templateExecution failure := by
        rintro ⟨failure, rfl⟩
        rcases Binder.exists_of_prepare hp with h | ⟨_, h⟩ <;> cases h
      simpa [Except.toOption, bind, Except.bind] using hne
  | ok p =>
      obtain rfl : binding = p.1 := Option.some.inj (hb.symm.trans (Binder.prepare_binding hp))
      exact executed_iff (fun _ => Binder.isOfLoading_of_templateSet) (fun _ _ => TemplateSet.exists_of_render) _

theorem loadedSource?_iff {s : Session} {apiName : String} {at' : Instant} {name : String} {source : DataSource}
    {kind : SourceKind} (hk : source.kind? = some kind) :
    s.loadedSource? (.renderSource apiName at' name source) = some kind ↔
      ∀ e, s.Fails e (.renderSource apiName at' name source) → ∃ failure, e = .templateExecution failure := by
  rw [source.kind?_eq name] at hk
  simp only [loadedSource?, Fails, Binder.renderSource_fst]
  cases hc : SourceContext.of? name source with
  | none =>
      rw [hc] at hk
      cases hk
  | some c =>
      rw [hc] at hk
      obtain rfl : c.kind = kind := Option.some.inj hk
      exact executed_iff (fun _ => Binder.isOfLoading_of_sourceTemplate) (fun _ _ => Template.exists_of_renderSource) _

/-! ## What a session shows -/

/-- What comes of the next step after these, from the binder at the start and the first loads alone. -/
structure Transparent (start : Session) (steps : List Step) : Prop where
  /-- A resolver is rendered as at the start, with the files as they were when its templates were first
  loaded, or as they are now if that is yet to come. -/
  resolvers : ∀ apiName sources at' r key, (∀ binding ∈ r.binding, TemplateKey.ofBinding binding = key) →
    ((start.run steps).binder.bind (start.run steps).tree.read apiName sources at' r).1 =
      (start.binder.bind ((first? (start.loads loadedSet? steps) key).getD (start.run steps).tree).read
        apiName sources at' r).1
  sources : ∀ apiName at' name source kind, (∀ kind' ∈ source.kind?, kind' = kind) →
    ((start.run steps).binder.renderSource (start.run steps).tree.read apiName at' name source).1 =
      (start.binder.renderSource ((first? (start.loads loadedSource? steps) kind).getD (start.run steps).tree).read
        apiName at' name source).1
  unloaded : ∀ next e, (start.run steps).Fails e next → (∀ failure, e ≠ .templateExecution failure) →
    ((start.run steps).step next).binder = (start.run steps).binder
  /-- A step counts as a load of its templates as soon as it does not fail before executing them. -/
  loadedSet : ∀ apiName sources at' r binding, r.binding = some binding →
    ((start.run steps).loadedSet? (.bind apiName sources at' r) = some (.ofBinding binding) ↔
      ∀ e, (start.run steps).Fails e (.bind apiName sources at' r) → ∃ failure, e = .templateExecution failure)
  loadedSource : ∀ apiName at' name source kind, source.kind? = some kind →
    ((start.run steps).loadedSource? (.renderSource apiName at' name source) = some kind ↔
      ∀ e, (start.run steps).Fails e (.renderSource apiName at' name source) →
        ∃ failure, e = .templateExecution failure)
  cached : (start.run steps).binder.cached = ((start.loads loadedSet? steps).map (·.1)).eraseDups.length

variable (tree : FileTree) (roots : TemplateRoots) (extension : String) (steps : List Step)

def start : Session :=
  { tree, binder := { roots, extension } }

theorem start_keeps_sets : Keeps (loadSet roots) ((start tree roots extension).loads loadedSet? steps)
    ((start tree roots extension).run steps).binder.sets :=
  Keeps.run (s := start tree roots extension) step_keeps_sets .nil steps

theorem start_keeps_sources : Keeps (loadSource roots) ((start tree roots extension).loads loadedSource? steps)
    ((start tree roots extension).run steps).binder.sources :=
  Keeps.run (s := start tree roots extension) step_keeps_sources .nil steps

/-- Whatever has been done before, a binder shows no more of it than the files of its first loads. -/
theorem transparent : Transparent (start tree roots extension) steps where
  resolvers := by
    intro apiName sources at' r key hkey
    have hsettings := (start tree roots extension).run_settings steps
    have hkeeps := start_keeps_sets tree roots extension steps
    rw [Binder.bind_fst, Binder.bind_fst, hsettings.2]
    cases hp : Binder.prepare sources r with
    | error e => rfl
    | ok p =>
        obtain rfl : TemplateKey.ofBinding p.1 = key := hkey p.1 (Binder.prepare_binding hp)
        simp only [bind, Except.bind, templateSet_of_keeps hsettings.1 rfl hkeeps]
  sources := by
    intro apiName at' name source kind hkind
    have hsettings := (start tree roots extension).run_settings steps
    have hkeeps := start_keeps_sources tree roots extension steps
    rw [Binder.renderSource_fst, Binder.renderSource_fst, hsettings.2]
    rw [source.kind?_eq name] at hkind
    cases hc : SourceContext.of? name source with
    | none => rfl
    | some c =>
        obtain rfl : c.kind = kind := hkind c.kind (by rw [hc]; rfl)
        simp only [sourceTemplate_of_keeps hsettings.1 rfl hkeeps]
  unloaded := fun _ _ => step_binder_of_fails
  loadedSet := fun _ _ _ _ _ => loadedSet?_iff
  loadedSource := fun _ _ _ _ _ => loadedSource?_iff
  cached := by
    rw [← (start_keeps_sets tree roots extension steps).keys, List.length_map]
    rfl

end Session

end ApiManifest
