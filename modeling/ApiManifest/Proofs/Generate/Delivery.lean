import ApiManifest.Generate.Artifact
import ApiManifest.Proofs.Template.Cache
import Mathlib.Data.List.Forall2

/-!
# Rendering and delivery

Generating comes to rendering the artifacts and delivering the renderings one after another. While the
templates stay as they are, each artifact is rendered as it would be by itself, at the start; and one that
fails to render is as good as not there.
-/

namespace ApiManifest

/-! ## One artifact -/

def Generation.rendering (g : Generation) (files : Reader) (b : Binder) (a : Artifact) : Rendering :=
  (a.render g files b).1

variable {σ : Type} {g : Generation} {sink : Sink σ} {files files' : Reader} {b b' : Binder} {stored : σ}

theorem Artifact.render_congr {a : Artifact} (h : b.roots.Agree a.templates files files') :
    a.render g files b = a.render g files' b := by
  cases a with
  | schema => rfl
  | resolver r =>
      have ht : ∀ binding, r.binding = some binding →
          b.roots.Agree (TemplateKey.ofBinding binding).templates files files' := by
        intro binding hr
        simp only [Artifact.templates, hr] at h
        exact h
      simp only [Artifact.render, Binder.bind_congr ht]
  | source name declaration =>
      have ht : ∀ kind, declaration.kind? = some kind → b.roots.Agree [kind.templatePath] files files' := by
        intro kind hk
        simp only [Artifact.templates, hk, Option.map_some, Option.toList_some] at h
        exact h
      simp only [Artifact.render, Binder.renderSource_congr ht]

theorem Artifact.like_render (g : Generation) (files : Reader) (b : Binder) (a : Artifact) :
    b.Like files (a.render g files b).2 := by
  cases a with
  | schema => exact .refl files b
  | resolver r => exact b.like_bind files g.schema.apiName g.schema.sources g.generatedAt r
  | source name declaration => exact b.like_renderSource files g.schema.apiName g.generatedAt name declaration

theorem Binder.Like.rendering (h : b.Like files b') : g.rendering files b' = g.rendering files b := by
  funext a
  cases a with
  | schema => rfl
  | resolver r => simp only [Generation.rendering, Artifact.render, h.bind]
  | source name declaration => simp only [Generation.rendering, Artifact.render, h.renderSource]

theorem Rendering.store_error {r : Rendering} {e : RenderError} (h : r.outcome = .error e) :
    r.store sink stored = ({ artifact := r.artifact, outcome := .error e, stage := r.stage }, stored) := by
  simp [Rendering.store, h]

theorem Rendering.store_ok {r : Rendering} {name text : String} (h : r.outcome = .ok (name, text)) :
    r.store sink stored = ({ artifact := r.artifact, outcome := (sink.write name text stored).1, stage := r.stage },
      (sink.write name text stored).2) := by
  simp [Rendering.store, h]

/-! ## Delivery -/

def Sink.deliver (sink : Sink σ) : List Rendering → σ → List ArtifactResult × σ
  | [], stored => ([], stored)
  | r :: rs, stored =>
    let (result, stored) := r.store sink stored
    let (rest, stored) := sink.deliver rs stored
    (result :: rest, stored)

theorem Sink.deliver_cons (r : Rendering) (rs : List Rendering) (stored : σ) :
    sink.deliver (r :: rs) stored =
      ((r.store sink stored).1 :: (sink.deliver rs (r.store sink stored).2).1,
        (sink.deliver rs (r.store sink stored).2).2) :=
  rfl

theorem Sink.deliver_append (rs rs' : List Rendering) (stored : σ) :
    sink.deliver (rs ++ rs') stored =
      ((sink.deliver rs stored).1 ++ (sink.deliver rs' (sink.deliver rs stored).2).1,
        (sink.deliver rs' (sink.deliver rs stored).2).2) := by
  induction rs generalizing stored with
  | nil => rfl
  | cons r rs ih => simp only [List.cons_append, deliver_cons, ih]

structure Rendering.Told (r : Rendering) (result : ArtifactResult) : Prop where
  artifact : result.artifact = r.artifact
  stage : result.stage = r.stage
  failed : ∀ e, r.outcome = .error e → result.outcome = .error e
  written : ∀ path, result.outcome = .ok path → ∃ name text, r.outcome = .ok (name, text)

theorem Rendering.store_told (r : Rendering) (sink : Sink σ) (stored : σ) : r.Told (r.store sink stored).1 := by
  cases h : r.outcome with
  | error e =>
      rw [store_error h]
      constructor <;> simp [h]
  | ok rendered =>
      obtain ⟨name, text⟩ := rendered
      rw [store_ok h]
      constructor <;> simp [h]

theorem Sink.deliver_told (rs : List Rendering) (stored : σ) :
    List.Forall₂ Rendering.Told rs (sink.deliver rs stored).1 := by
  induction rs generalizing stored with
  | nil => exact .nil
  | cons r rs ih => exact .cons (r.store_told sink stored) (ih _)

/-! ## Whole runs -/

namespace Generation

def renderings (g : Generation) (sink : Sink σ) : List Artifact → Binder → σ → List Rendering
  | [], _, _ => []
  | a :: as, b, stored =>
    (a.render g (sink.files stored) b).1 ::
      g.renderings sink as (a.render g (sink.files stored) b).2 ((a.render g (sink.files stored) b).1.store sink stored).2

theorem results_eq_deliver (as : List Artifact) (b : Binder) (stored : σ) :
    g.results sink as b stored = sink.deliver (g.renderings sink as b stored) stored := by
  induction as generalizing b stored with
  | nil => rfl
  | cons a as ih => simp only [results, renderings, Sink.deliver_cons, ih]

/-- Whenever the turn of an artifact comes, the files of its templates read as given. -/
def TemplatesStay (g : Generation) (sink : Sink σ) (files : Reader) : List Artifact → Binder → σ → Prop
  | [], _, _ => True
  | a :: as, b, stored =>
    b.roots.Agree a.templates (sink.files stored) files ∧
      g.TemplatesStay sink files as (a.render g (sink.files stored) b).2
        ((a.render g (sink.files stored) b).1.store sink stored).2

theorem templatesStay_cons {a : Artifact} {as : List Artifact} :
    g.TemplatesStay sink files (a :: as) b stored ↔
      b.roots.Agree a.templates (sink.files stored) files ∧
        g.TemplatesStay sink files as (a.render g files b).2 ((g.rendering files b a).store sink stored).2 := by
  rw [TemplatesStay]
  refine and_congr_right fun h => ?_
  rw [Artifact.render_congr h, rendering]

theorem templatesStay_of_files (h : ∀ stored, sink.files stored = files) (as : List Artifact) (b : Binder)
    (stored : σ) : g.TemplatesStay sink files as b stored := by
  induction as generalizing b stored with
  | nil => trivial
  | cons a as ih => exact templatesStay_cons.mpr ⟨h stored ▸ .refl _ _ _, ih _ _⟩

/-- While the templates stay as they are, it does not matter when an artifact is rendered. -/
theorem renderings_eq {as : List Artifact} (h : g.TemplatesStay sink files as b stored) :
    g.renderings sink as b stored = as.map (g.rendering files b) := by
  induction as generalizing b stored with
  | nil => rfl
  | cons a as ih =>
      obtain ⟨hagree, hstay⟩ := templatesStay_cons.mp h
      have hrest := ih hstay
      rw [(a.like_render g files b).rendering] at hrest
      simp only [renderings, Artifact.render_congr hagree, List.map_cons, ← hrest]
      rfl

theorem TemplatesStay.like {as : List Artifact} (h : g.TemplatesStay sink files as b stored)
    (hb : b.Like files b') : g.TemplatesStay sink files as b' stored := by
  induction as generalizing b b' stored with
  | nil => trivial
  | cons a as ih =>
      rw [templatesStay_cons] at h ⊢
      rw [hb.roots, hb.rendering]
      exact ⟨h.1, ih h.2 ((a.like_render g files b).symm.trans (hb.trans (a.like_render g files b')))⟩

theorem TemplatesStay.drop_failed {before after : List Artifact} {a : Artifact} {e : RenderError}
    (h : g.TemplatesStay sink files (before ++ a :: after) b stored)
    (ha : (g.rendering files b a).outcome = .error e) :
    g.TemplatesStay sink files (before ++ after) b stored := by
  induction before generalizing b stored with
  | nil =>
      obtain ⟨_, hstay⟩ := templatesStay_cons.mp h
      rw [Rendering.store_error ha] at hstay
      exact hstay.like (a.like_render g files b).symm
  | cons a' before ih =>
      obtain ⟨hagree, hstay⟩ := templatesStay_cons.mp h
      refine templatesStay_cons.mpr ⟨hagree, ih hstay ?_⟩
      rw [(a'.like_render g files b).rendering]
      exact ha

/-- An artifact that fails to render changes neither the results of the others nor what is stored. -/
theorem results_drop_failed {before after : List Artifact} {a : Artifact} {e : RenderError}
    (h : g.TemplatesStay sink files (before ++ a :: after) b stored)
    (ha : (g.rendering files b a).outcome = .error e) :
    ∃ rs rs' stored', rs.length = before.length ∧
      g.results sink (before ++ after) b stored = (rs ++ rs', stored') ∧
      g.results sink (before ++ a :: after) b stored =
        (rs ++ { artifact := (g.rendering files b a).artifact, outcome := .error e,
                 stage := (g.rendering files b a).stage } :: rs', stored') := by
  rw [results_eq_deliver, results_eq_deliver, renderings_eq h, renderings_eq (h.drop_failed ha)]
  simp only [List.map_append, List.map_cons, Sink.deliver_append, Sink.deliver_cons, Rendering.store_error ha]
  refine ⟨_, _, _, ?_, rfl, rfl⟩
  rw [← (Sink.deliver_told _ stored).length_eq, List.length_map]

end Generation

end ApiManifest
