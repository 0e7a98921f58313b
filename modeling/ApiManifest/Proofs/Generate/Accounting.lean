import ApiManifest.Proofs.Files.Order
import ApiManifest.Proofs.Generate.Delivery
import ApiManifest.Proofs.Manifest.Decoding
import ApiManifest.Proofs.Schema.Derivation

/-!
# What a report accounts for

Every artifact is either written or reported as failed, every resolver is reported with the stage that it
ends in, and a report of success leaves nothing out.
-/

namespace ApiManifest

/-! ## Recorded results -/

namespace ArtifactResult

def path? (a : ArtifactResult) : Option Path :=
  match a.outcome with
  | .ok path => some path
  | .error _ => none

def failure? (a : ArtifactResult) : Option (String × RenderError) :=
  match a.outcome with
  | .ok _ => none
  | .error e => some (a.artifact, e)

def stageEntry? (a : ArtifactResult) : Option (String × Stage) :=
  a.stage.map fun stage => (a.artifact, stage)

theorem length_paths_add_failures (rs : List ArtifactResult) :
    (rs.filterMap path?).length + (rs.filterMap failure?).length = rs.length := by
  induction rs with
  | nil => rfl
  | cons a rs ih => cases h : a.outcome <;> simp [path?, failure?, h] at ih ⊢ <;> omega

theorem failures_eq_nil {rs : List ArtifactResult} :
    rs.filterMap failure? = [] ↔ ∀ a ∈ rs, ∃ path, a.outcome = .ok path := by
  rw [List.filterMap_eq_nil_iff]
  refine forall₂_congr fun a _ => ?_
  cases h : a.outcome <;> simp [failure?, h]

end ArtifactResult

theorem Report.foldl_record (rs : List ArtifactResult) (r : Report) :
    rs.foldl record r =
      { r with
        written := r.written ++ rs.filterMap ArtifactResult.path?
        errors := r.errors ++ rs.filterMap ArtifactResult.failure?
        stages := r.stages ++ rs.filterMap ArtifactResult.stageEntry? } := by
  induction rs generalizing r with
  | nil => simp
  | cons a rs ih =>
      rw [List.foldl_cons, ih]
      cases ho : a.outcome <;> cases hs : a.stage <;>
        simp [record, ArtifactResult.path?, ArtifactResult.failure?, ArtifactResult.stageEntry?, ho, hs]

theorem Report.isSuccess_iff {r : Report} : r.isSuccess = true ↔ r.errors = [] ∧ r.schemaErrors = [] := by
  simp [isSuccess, errorCount]

theorem Schema.length_artifacts (s : Schema) :
    s.artifacts.length = 1 + s.boundResolvers.length + s.sources.length := by
  simp only [artifacts, List.length_append, List.length_cons, List.length_map]
  omega

namespace Generation

def reportOf (g : Generation) (recorded : List ArtifactResult) : Report :=
  (recorded.foldl Report.record g.schema.initialReport).inOrder

theorem run_eq_reportOf {σ : Type} (g : Generation) (b : Binder) (sink : Sink σ) (stored : σ) :
    (g.run b sink stored).1 = g.reportOf (g.results sink g.schema.artifacts b stored).1 :=
  rfl

variable {g : Generation} {recorded recorded' : List ArtifactResult}

theorem reportOf_written_perm : (g.reportOf recorded).written.Perm (recorded.filterMap ArtifactResult.path?) := by
  rw [reportOf, Report.foldl_record]
  exact List.mergeSort_perm _ _

theorem reportOf_errors_perm : (g.reportOf recorded).errors.Perm (recorded.filterMap ArtifactResult.failure?) := by
  rw [reportOf, Report.foldl_record]
  exact List.mergeSort_perm _ _

theorem reportOf_stages_perm :
    (g.reportOf recorded).stages.Perm
      (g.schema.initialReport.stages ++ recorded.filterMap ArtifactResult.stageEntry?) := by
  rw [reportOf, Report.foldl_record]
  exact List.mergeSort_perm _ _

theorem reportOf_schemaErrors : (g.reportOf recorded).schemaErrors = g.schema.errors := by
  rw [reportOf, Report.foldl_record]
  rfl

theorem reportOf_stages_sorted : (g.reportOf recorded).stages.Pairwise fun e e' => e.1 ≤ e'.1 := by
  have trans : ∀ e e' e'' : String × Stage, decide (e.1 ≤ e'.1) = true → decide (e'.1 ≤ e''.1) = true →
      decide (e.1 ≤ e''.1) = true := by
    intro e e' e''
    simpa only [decide_eq_true_eq] using String.le_trans
  have total : ∀ e e' : String × Stage, (decide (e.1 ≤ e'.1) || decide (e'.1 ≤ e.1)) = true := by
    intro e e'
    simpa only [Bool.or_eq_true, decide_eq_true_eq] using String.le_total e.1 e'.1
  have h := List.pairwise_mergeSort trans total (recorded.foldl Report.record g.schema.initialReport).stages
  simp only [decide_eq_true_eq] at h
  exact h

/-- Whatever the order in which results are recorded, the report is the same, written paths being
compared step by step. -/
theorem reportOf_perm (h : recorded.Perm recorded') :
    (g.reportOf recorded).written.map Path.steps = (g.reportOf recorded').written.map Path.steps ∧
      (g.reportOf recorded).written.Perm (g.reportOf recorded').written ∧
      (g.reportOf recorded).errors.Perm (g.reportOf recorded').errors ∧
      (g.reportOf recorded).stages.Perm (g.reportOf recorded').stages := by
  refine ⟨?_, ?_, ?_, ?_⟩
  · simp only [reportOf, Report.foldl_record, Report.inOrder]
    exact Path.sorted_steps_eq ((h.filterMap _).append_left _)
  · exact reportOf_written_perm.trans ((h.filterMap _).trans reportOf_written_perm.symm)
  · exact reportOf_errors_perm.trans ((h.filterMap _).trans reportOf_errors_perm.symm)
  · exact reportOf_stages_perm.trans (((h.filterMap _).append_left _).trans reportOf_stages_perm.symm)

theorem reportOf_count : (g.reportOf recorded).written.length + (g.reportOf recorded).errors.length = recorded.length := by
  rw [reportOf_written_perm.length_eq, reportOf_errors_perm.length_eq]
  exact ArtifactResult.length_paths_add_failures recorded

/-! ## Stages -/

/-- The stage that a resolver ends in: the one in which binding left it, or what rendering makes of it. -/
def finalStage (g : Generation) (files : Reader) (b : Binder) (r : Resolver) : Stage :=
  match r.binding with
  | none => r.stage
  | some _ =>
    match (b.bind files g.schema.apiName g.schema.sources g.generatedAt r).1 with
    | .ok _ => .rendered
    | .error e => e.stage

variable {σ : Type} {sink : Sink σ} {files : Reader} {b : Binder} {stored : σ} {order : List Artifact}

theorem stageEntry?_of_told {rs : List Rendering} {results : List ArtifactResult}
    (h : List.Forall₂ Rendering.Told rs results) :
    results.filterMap ArtifactResult.stageEntry? = rs.filterMap fun r => r.stage.map fun stage => (r.artifact, stage) := by
  induction h with
  | nil => rfl
  | cons told _ ih =>
      simp only [List.filterMap_cons, ArtifactResult.stageEntry?, told.stage, told.artifact, ih]

theorem artifacts_stages (g : Generation) (files : Reader) (b : Binder) :
    ((g.schema.artifacts.map (g.rendering files b)).filterMap fun r => r.stage.map fun stage => (r.artifact, stage)) =
      (g.schema.resolvers.filter fun x => x.2.binding.isSome).map fun x => (x.2.display, g.finalStage files b x.2) := by
  have hsources : ∀ sources : Dict DataSource,
      ((sources.map fun e => Artifact.source e.1 e.2).map (g.rendering files b)).filterMap
        (fun r => r.stage.map fun stage => (r.artifact, stage)) = [] := by
    intro sources
    rw [List.filterMap_eq_nil_iff]
    simp only [List.map_map, List.forall_mem_map]
    intro e _
    rfl
  have hresolvers : ∀ rs : List (Location × Resolver),
      ((((rs.map (·.2)).filter fun r => r.binding.isSome).map Artifact.resolver).map (g.rendering files b)).filterMap
        (fun r => r.stage.map fun stage => (r.artifact, stage)) =
      (rs.filter fun x => x.2.binding.isSome).map fun x => (x.2.display, g.finalStage files b x.2) := by
    intro rs
    induction rs with
    | nil => rfl
    | cons x rs ih =>
        cases hb : x.2.binding with
        | none => simpa [hb] using ih
        | some binding =>
            have hstage : g.finalStage files b x.2 =
                (match (b.bind files g.schema.apiName g.schema.sources g.generatedAt x.2).1 with
                  | .ok _ => .rendered
                  | .error e => e.stage) := by
              simp only [finalStage, hb]
            simp only [List.map_cons, List.filter_cons, hb, Option.isSome_some, ↓reduceIte, hstage, ← ih]
            rfl
  simp only [Schema.artifacts, Schema.boundResolvers, List.cons_append, List.map_cons, List.map_append,
    List.filterMap_cons, List.filterMap_append, hsources, hresolvers, List.append_nil]
  rfl

theorem reportOf_stages (horder : order.Perm g.schema.artifacts)
    (hstay : g.TemplatesStay sink files order b stored) (hrecorded : recorded.Perm (g.results sink order b stored).1) :
    (g.reportOf recorded).stages.Perm (g.schema.resolvers.map fun x => (x.2.display, g.finalStage files b x.2)) := by
  have hinitial : g.schema.initialReport.stages =
      (g.schema.resolvers.filter fun x => !x.2.binding.isSome).map fun x => (x.2.display, g.finalStage files b x.2) := by
    have hnone : ∀ x : Location × Resolver, x.2.binding.isNone = !x.2.binding.isSome := by simp
    simp only [Schema.initialReport, hnone]
    refine List.map_congr_left fun x hx => ?_
    have hb : x.2.binding = none := by simpa using (List.mem_filter.mp hx).2
    simp only [finalStage, hb]
  rw [results_eq_deliver, renderings_eq hstay] at hrecorded
  have hdelivered := (hrecorded.filterMap ArtifactResult.stageEntry?).trans
    (.of_eq (stageEntry?_of_told (Sink.deliver_told _ _)))
  have hordered := hdelivered.trans (((horder.map (g.rendering files b)).filterMap _).trans
    (.of_eq (artifacts_stages g files b)))
  refine (reportOf_stages_perm.trans (hordered.append_left _)).trans ?_
  rw [hinitial, ← List.map_append]
  exact (List.perm_append_comm.trans (List.filter_append_perm _ _)).map _

theorem finalStage_eq_rendered {r : Resolver} (hr : r.binding ≠ none) :
    g.finalStage files b r = .rendered ↔
      ∃ out, (b.bind files g.schema.apiName g.schema.sources g.generatedAt r).1 = .ok out := by
  have hne : ∀ e : RenderError, e.stage ≠ .rendered := by
    intro e
    cases e <;> simp [RenderError.stage]
  obtain ⟨binding, hb⟩ := Option.ne_none_iff_exists'.mp hr
  simp only [finalStage, hb]
  cases (b.bind files g.schema.apiName g.schema.sources g.generatedAt r).1 with
  | error e => simp [hne e]
  | ok out => simp

/-! ## Success -/

theorem results_told (order : List Artifact) (b : Binder) (stored : σ) :
    List.Forall₂ Rendering.Told (g.renderings sink order b stored) (g.results sink order b stored).1 := by
  rw [results_eq_deliver]
  exact Sink.deliver_told _ _

theorem forall_written_iff {rs : List Rendering} {results : List ArtifactResult}
    (h : List.Forall₂ Rendering.Told rs results) :
    (∀ result ∈ results, ∃ path, result.outcome = .ok path) ↔
      List.Forall₂ (fun r result => ∃ name text path,
        r.outcome = .ok (name, text) ∧ result.outcome = .ok path) rs results := by
  induction h with
  | nil => simp
  | cons told _ ih =>
      rw [List.forall_mem_cons, List.forall₂_cons, ih]
      refine and_congr_left fun _ => ?_
      constructor
      · rintro ⟨path, hpath⟩
        obtain ⟨name, text, hr⟩ := told.written path hpath
        exact ⟨name, text, path, hr, hpath⟩
      · rintro ⟨_, _, path, _, hpath⟩
        exact ⟨path, hpath⟩

theorem reportOf_errors_eq_nil (hrecorded : recorded.Perm (g.results sink order b stored).1) :
    (g.reportOf recorded).errors = [] ↔ ∀ r ∈ (g.results sink order b stored).1, ∃ path, r.outcome = .ok path := by
  have herrors := (reportOf_errors_perm (g := g)).trans (hrecorded.filterMap ArtifactResult.failure?)
  rw [← List.length_eq_zero_iff, herrors.length_eq, List.length_eq_zero_iff, ArtifactResult.failures_eq_nil]

/-! ## Sinks that answer by name and text -/

/-- Where a sink answers by the name and the text alone, results do not depend on the order of the
artifacts. -/
theorem results_of_answer {answer : String → String → Except RenderError Path}
    (hanswer : ∀ name text stored, (sink.write name text stored).1 = answer name text)
    (hstay : g.TemplatesStay sink files order b stored) :
    (g.results sink order b stored).1 = order.map fun a =>
      { artifact := (g.rendering files b a).artifact
        outcome := (g.rendering files b a).outcome.bind fun rendered => answer rendered.1 rendered.2
        stage := (g.rendering files b a).stage } := by
  rw [results_eq_deliver, renderings_eq hstay]
  clear hstay
  induction order generalizing stored with
  | nil => rfl
  | cons a as ih =>
      simp only [List.map_cons, Sink.deliver_cons, ih]
      cases h : (g.rendering files b a).outcome with
      | error e =>
          rw [Rendering.store_error h]
          rfl
      | ok rendered =>
          rw [Rendering.store_ok h, hanswer]
          rfl

end Generation

/-! ## Schemas of manifests -/

namespace Manifest

variable {m : Manifest}

theorem resolve_sources (m : Manifest) : m.resolve.sources = m.sources := by
  rw [resolve_eq_derived]
  rfl

theorem WellRead.resolverAt?_iff (hm : m.WellRead) {l : Location} {r : Resolver} :
    m.resolve.resolverAt? l = some r ↔ (l, r) ∈ m.resolve.resolvers := by
  refine Schema.resolverAt?_eq_some ?_ m.resolve_objects_named
  have hnames : m.resolve.objects.names = m.objects.names := by
    simp [resolve_objects, Dict.names, Function.comp_def]
  rw [hnames]
  exact hm.objectNames

theorem stage_of_unbound {x : Location × Resolver} (hx : x ∈ m.resolve.resolvers)
    (hr : x.2.binding = none) : x.2.stage = .unbound ∨ x.2.stage = .invalidAction := by
  obtain ⟨d, _, rfl⟩ := exists_declaration hx
  rcases d.resolver.bind_cases (d.site m.sources) with ⟨b, h, _⟩ | ⟨e, h⟩
  · simp [h] at hr
  · simpa only [h] using e.bindingStage_cases

/-- A manifest that has been read has a schema without errors just if all its resolvers are bound and
nothing is wrong with what they call for. -/
theorem WellRead.errors_eq_nil (hm : m.WellRead) :
    m.resolve.errors = [] ↔ (∀ x ∈ m.resolve.resolvers, x.2.binding ≠ none) ∧
      m.resolve.diagnosticsAfter [] m.resolve.resolvers = [] := by
  rw [resolve_errors, List.append_eq_nil_iff]
  exact and_congr_left fun _ => m.resolve_resolvers ▸ hm.fresh.bindErrors_eq_nil

end Manifest

/-! ## The account -/

namespace Generation

variable {σ : Type}

/-- What a generation accounts for when its artifacts are taken in some order and their results are
recorded in some order. -/
structure Accounted (g : Generation) (b : Binder) (sink : Sink σ) (stored : σ) (order : List Artifact)
    (recorded : List ArtifactResult) : Prop where
  count : (g.reportOf recorded).written.length + (g.reportOf recorded).errors.length =
    1 + g.schema.boundResolvers.length + g.schema.sources.length
  /-- Every resolver is found again where it is declared, and every data source by its name. -/
  found : (∀ x ∈ g.schema.resolvers, g.schema.resolverAt? x.1 = some x.2) ∧
    ∀ e ∈ g.schema.sources, g.schema.sources.value? e.1 = some e.2
  stages : (g.reportOf recorded).stages.Pairwise (fun e e' => e.1 ≤ e'.1) ∧
    (g.reportOf recorded).stages.Perm
      (g.schema.resolvers.map fun x => (x.2.display, g.finalStage (sink.files stored) b x.2))
  unbound : ∀ x ∈ g.schema.resolvers, x.2.binding = none →
    g.finalStage (sink.files stored) b x.2 = x.2.stage ∧ (x.2.stage = .unbound ∨ x.2.stage = .invalidAction)
  bound : ∀ x ∈ g.schema.resolvers, x.2.binding ≠ none →
    (g.finalStage (sink.files stored) b x.2 = .rendered ↔ ∃ out,
      (b.bind (sink.files stored) g.schema.apiName g.schema.sources g.generatedAt x.2).1 = .ok out)
  /-- An artifact that fails to render is reported, and all else is as if it were not there. -/
  failure : ∀ before a after e, order = before ++ a :: after →
    (g.rendering (sink.files stored) b a).outcome = .error e →
    ∃ rs rs' stored', rs.length = before.length ∧
      g.results sink (before ++ after) b stored = (rs ++ rs', stored') ∧
      g.results sink order b stored =
        (rs ++ { artifact := (g.rendering (sink.files stored) b a).artifact, outcome := .error e,
                 stage := (g.rendering (sink.files stored) b a).stage } :: rs', stored')
  /-- Another order of recording gives the same report; so does another order of the artifacts, where the
  sink answers by name and text alone. -/
  anyOrder : ∀ order' recorded', order'.Perm g.schema.artifacts →
    g.TemplatesStay sink (sink.files stored) order' b stored →
    recorded'.Perm (g.results sink order' b stored).1 →
    (order' = order ∨ ∃ answer : String → String → Except RenderError Path,
      ∀ name text stored', (sink.write name text stored').1 = answer name text) →
    (g.reportOf recorded').written.map Path.steps = (g.reportOf recorded).written.map Path.steps ∧
      (g.reportOf recorded').written.Perm (g.reportOf recorded).written ∧
      (g.reportOf recorded').errors.Perm (g.reportOf recorded).errors ∧
      (g.reportOf recorded').stages.Perm (g.reportOf recorded).stages
  success : (g.reportOf recorded).isSuccess = true ↔
    (∀ x ∈ g.schema.resolvers, x.2.binding ≠ none) ∧ g.schema.diagnosticsAfter [] g.schema.resolvers = [] ∧
      List.Forall₂ (fun a r => ∃ name text path,
        (g.rendering (sink.files stored) b a).outcome = .ok (name, text) ∧ r.outcome = .ok path)
        order (g.results sink order b stored).1

/-- A run takes the artifacts in their order and records their results as they come. -/
theorem Accounted.run {g : Generation} {b : Binder} {sink : Sink σ} {stored : σ}
    (h : g.Accounted b sink stored g.schema.artifacts (g.results sink g.schema.artifacts b stored).1) :
    let report := (g.run b sink stored).1
    report.written.length + report.errors.length = 1 + g.schema.boundResolvers.length + g.schema.sources.length ∧
      report.stages.Perm (g.schema.resolvers.map fun x => (x.2.display, g.finalStage (sink.files stored) b x.2)) ∧
      (report.isSuccess = true ↔
        (∀ x ∈ g.schema.resolvers, x.2.binding ≠ none) ∧ g.schema.diagnosticsAfter [] g.schema.resolvers = [] ∧
          List.Forall₂ (fun a r => ∃ name text path,
            (g.rendering (sink.files stored) b a).outcome = .ok (name, text) ∧ r.outcome = .ok path)
            g.schema.artifacts (g.results sink g.schema.artifacts b stored).1) := by
  rw [run_eq_reportOf]
  exact ⟨h.count, h.stages.2, h.success⟩

/-- The report of a generation accounts for everything in the schema of a manifest. -/
theorem accounted {bytes : List UInt8} {m : Manifest} (hm : Manifest.parse bytes = .ok m) {g : Generation}
    (hg : g.schema = m.resolve) (b : Binder) (sink : Sink σ) (stored : σ) {order : List Artifact}
    (horder : order.Perm g.schema.artifacts) (hstay : g.TemplatesStay sink (sink.files stored) order b stored)
    {recorded : List ArtifactResult} (hrecorded : recorded.Perm (g.results sink order b stored).1) :
    g.Accounted b sink stored order recorded where
  count := by
    rw [reportOf_count, hrecorded.length_eq, ← (results_told order b stored).length_eq, renderings_eq hstay,
      List.length_map, horder.length_eq, g.schema.length_artifacts]
  found := by
    rw [hg]
    have hread := Manifest.parse_wellRead hm
    refine ⟨fun x hx => hread.resolverAt?_iff.mpr hx, fun e he => ?_⟩
    rw [m.resolve_sources] at he ⊢
    exact Dict.value?_of_mem hread.sourceNames he
  stages := ⟨reportOf_stages_sorted, reportOf_stages horder hstay hrecorded⟩
  unbound := by
    intro x hx hb
    refine ⟨by simp only [finalStage, hb], ?_⟩
    rw [hg] at hx
    exact Manifest.stage_of_unbound hx hb
  bound := fun x _ hb => finalStage_eq_rendered hb
  failure := by
    rintro before a after e rfl ha
    exact results_drop_failed hstay ha
  anyOrder := by
    rintro order' recorded' horder' hstay' hrecorded' (rfl | ⟨answer, hanswer⟩)
    · exact reportOf_perm (hrecorded'.trans hrecorded.symm)
    · rw [results_of_answer hanswer hstay] at hrecorded
      rw [results_of_answer hanswer hstay'] at hrecorded'
      exact reportOf_perm (hrecorded'.trans (((horder'.trans horder.symm).map _).trans hrecorded.symm))
  success := by
    rw [Report.isSuccess_iff, reportOf_errors_eq_nil hrecorded, forall_written_iff (results_told order b stored),
      renderings_eq hstay, List.forall₂_map_left_iff, reportOf_schemaErrors, hg,
      (Manifest.parse_wellRead hm).errors_eq_nil]
    exact and_comm.trans and_assoc

def oneQuery : String :=
  "version: v2\napiNameSuffix: zoo\nqueries:\n  - name: animal\n    resolver:\n      action: get\n" ++
    "sources:\n  default:\n    lambda: \x7b\x7d\n"

def sourceTemplateOnly : Reader := fun path =>
  if path = "standard/lambda/datasource.tmpl" then .ok (Text.Utf8.encode "\x7b\x7b dataSource.name \x7d\x7d")
  else .error .missing

/-- The artifacts being taken backwards and their results recorded forwards, all is accounted for. -/
theorem oneQuery_accounted :
    ∃ m, Manifest.parse (Text.Utf8.encode oneQuery) = .ok m ∧
      let g : Generation := { schema := m.resolve, generatedAt := {} }
      let b : Binder := { roots := { standard := "standard" }, extension := "tf" }
      let sink := Sink.memory sourceTemplateOnly
      g.Accounted b sink [] g.schema.artifacts.reverse (g.results sink g.schema.artifacts.reverse b []).1.reverse := by
  have check : (Manifest.parse (Text.Utf8.encode oneQuery)).isOk = true := by
    decide +kernel
  cases hm : Manifest.parse (Text.Utf8.encode oneQuery) with
  | error e => simp [hm, Except.isOk, Except.toBool] at check
  | ok m =>
      exact ⟨m, rfl, accounted hm rfl _ _ _ (List.reverse_perm _)
        (templatesStay_of_files (fun _ => rfl) _ _ _) (List.reverse_perm _)⟩

end Generation

end ApiManifest
