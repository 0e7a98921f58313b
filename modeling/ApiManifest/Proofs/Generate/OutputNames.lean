import ApiManifest.Proofs.Files.Directory
import ApiManifest.Proofs.Generate.Delivery

/-!
# Names of files

The files of all artifacts go to one place, under names that leave something out: resolvers that differ
in case only share one, as do sources that differ in case, underscores and hyphens.
-/

namespace ApiManifest

def ResolverOf.identifier (r : Resolver) : String :=
  (r.binding.map (·.identifier)).getD ""

theorem TemplateSet.render_outputName {set : TemplateSet} {extension : String} {c : ResolverContext}
    {out : RenderedResolver} (h : set.render extension c = .ok out) :
    out.outputName = "_" ++ c.binding.identifier ++ "." ++ extension := by
  simp only [render, mapError_eq_ok, bind_eq_ok, pure_eq_ok] at h
  obtain ⟨_, _, _, _, _, _, rfl⟩ := h
  rfl

theorem Binder.bind_outputName {files : Reader} {apiName : String} {sources : Dict DataSource} {at' : Instant}
    {r : Resolver} {b : Binder} {out : RenderedResolver}
    (h : (b.bind files apiName sources at' r).1 = .ok out) :
    out.outputName = "_" ++ r.identifier ++ "." ++ b.extension := by
  unfold bind at h
  cases hp : prepare sources r with
  | error e =>
      rw [hp] at h
      cases h
  | ok prepared =>
      simp only [hp] at h
      obtain ⟨set, _, hrender⟩ := bind_eq_ok.mp h
      rw [TemplateSet.render_outputName hrender, (b.like_templateSet files _).extension]
      simp [ResolverOf.identifier, prepare_binding hp]

theorem Binder.renderSource_outputName {files : Reader} {apiName : String} {at' : Instant} {name : String}
    {source : DataSource} {b : Binder} {out : RenderedSource}
    (h : (b.renderSource files apiName at' name source).1 = .ok out) :
    out.outputName = "_datasource_" ++ DataSource.identifier name ++ "." ++ b.extension := by
  unfold renderSource at h
  cases hc : SourceContext.of? name source with
  | none =>
      rw [hc] at h
      cases h
  | some c =>
      simp only [hc] at h
      obtain ⟨t, _, hrender⟩ := bind_eq_ok.mp h
      unfold Template.renderSource at hrender
      split at hrender
      · cases hrender
        obtain ⟨variant, _, rfl⟩ := Option.map_eq_some_iff.mp hc
        rw [(b.like_sourceTemplate files _).extension]
        rfl
      · cases hrender

namespace Artifact

def outputName (extension : String) : Artifact → String
  | schema => schemaFileName
  | resolver r => "_" ++ r.identifier ++ "." ++ extension
  | source name _ => "_datasource_" ++ DataSource.identifier name ++ "." ++ extension

/-- Do two artifacts go to one file, whatever the extension? -/
def Clash : Artifact → Artifact → Prop
  | schema, schema => True
  | resolver r, resolver r' => r.identifier = r'.identifier
  | source name _, source name' _ => DataSource.identifier name = DataSource.identifier name'
  | resolver r, source name _ | source name _, resolver r => r.identifier = "datasource_" ++ DataSource.identifier name
  | _, _ => False

def stem? : Artifact → Option String
  | schema => none
  | resolver r => some r.identifier
  | source name _ => some ("datasource_" ++ DataSource.identifier name)

theorem outputName_eq (extension : String) (a : Artifact) :
    a.outputName extension = (a.stem?.map fun stem => "_" ++ stem ++ "." ++ extension).getD schemaFileName := by
  cases a with
  | schema | resolver r => rfl
  | source name d => simp [outputName, stem?, ← String.toList_inj]

theorem clash_iff {a a' : Artifact} : a.Clash a' ↔ a.stem? = a'.stem? := by
  have hdatasource : ∀ p q : String, "datasource_" ++ p = "datasource_" ++ q ↔ p = q := by
    intro p q
    simp [← String.toList_inj]
  cases a with
  | schema => cases a' <;> simp [Clash, stem?]
  | resolver r => cases a' <;> simp [Clash, stem?]
  | source name d =>
      cases a' with
      | schema => simp [Clash, stem?]
      | resolver r' => simp [Clash, stem?, eq_comm]
      | source name' d' => simp [Clash, stem?, hdatasource]

theorem outputName_eq_iff (extension : String) (a a' : Artifact) :
    a.outputName extension = a'.outputName extension ↔ a.Clash a' := by
  have hschema : ∀ stem : String, schemaFileName ≠ "_" ++ stem ++ "." ++ extension := by
    intro stem h
    simpa [schemaFileName] using congrArg (fun s => s.toList.head?) h
  rw [clash_iff, outputName_eq, outputName_eq]
  cases a.stem? with
  | none =>
      cases a'.stem? with
      | none => simp
      | some stem' => simpa using hschema stem'
  | some stem =>
      cases a'.stem? with
      | none => simpa using (hschema stem).symm
      | some stem' => simp [← String.toList_inj]

theorem Clash.symm {a a' : Artifact} (h : a.Clash a') : a'.Clash a :=
  clash_iff.mpr (clash_iff.mp h).symm

theorem nodup_outputNames (extension : String) (as : List Artifact) :
    (as.map (outputName extension)).Nodup ↔ as.Pairwise fun a a' => ¬ a.Clash a' := by
  rw [List.Nodup, List.pairwise_map]
  simp only [ne_eq, outputName_eq_iff]

theorem outputName_of_rendering {g : Generation} {files : Reader} {b : Binder} {a : Artifact} {name text : String}
    (h : (g.rendering files b a).outcome = .ok (name, text)) : name = a.outputName b.extension := by
  cases a with
  | schema =>
      cases h
      rfl
  | resolver r =>
      obtain ⟨out, hbind, hout⟩ := map_eq_ok.mp h
      cases hout
      exact Binder.bind_outputName hbind
  | source sourceName d =>
      obtain ⟨out, hsource, hout⟩ := map_eq_ok.mp h
      cases hout
      exact Binder.renderSource_outputName hsource

theorem startsDown_outputName (extension : String) (a : Artifact) : Path.StartsDown (a.outputName extension) := by
  cases a with
  | schema =>
      refine Path.startsDown_of_head? (c := 's') ?_ (by decide) (by decide)
      simp [outputName, schemaFileName]
  | resolver r =>
      refine Path.startsDown_of_head? (c := '_') ?_ (by decide) (by decide)
      simp [outputName]
  | source name d =>
      refine Path.startsDown_of_head? (c := '_') ?_ (by decide) (by decide)
      simp [outputName]

end Artifact

end ApiManifest
