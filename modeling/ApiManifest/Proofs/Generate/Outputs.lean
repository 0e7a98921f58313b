import ApiManifest.Generate.Run
import ApiManifest.Proofs.Generate.Accounting
import ApiManifest.Proofs.Generate.OutputNames
import ApiManifest.Proofs.Lists
import ApiManifest.Proofs.Text.Utf8

/-!
# What a generation leaves behind

A sink holds each text under the name of its file, until another one is written under that name. So a generation that
succeeds leaves under each name the text of the artifact that was taken last.
-/

namespace ApiManifest

/-! ## Sinks that keep texts by their names -/

variable {σ : Type}

/-- As long as only files are held, what is written for an artifact is held under the name of its file from then
on, and all else as before. -/
def Sink.Keeps (sink : Sink σ) (held : σ → String → Option Entry) : Prop :=
  ∀ extension a text stored path, (∀ name, held stored name ≠ some .directory) →
    (sink.write (Artifact.outputName extension a) text stored).1 = .ok path →
    ∀ name, held (sink.write (Artifact.outputName extension a) text stored).2 name =
      if a.outputName extension = name then some (.file (Text.Utf8.encode text)) else held stored name

theorem Sink.directory_keeps (root : Path) : (Sink.directory root).Keeps (FileTree.under root) := by
  intro extension a text tree path hflat hpath
  simp only [directory] at hpath ⊢
  cases hmade : tree.makeDirectories root with
  | mk isMade made =>
      cases isMade with
      | false => simp [hmade] at hpath
      | true =>
          simp only [hmade] at hpath ⊢
          cases hwrite : made.write (root.join (a.outputName extension)) (Text.Utf8.encode text) with
          | mk isWritten written =>
              cases isWritten with
              | false => simp [hwrite] at hpath
              | true => exact FileTree.under_write (a.startsDown_outputName extension) hflat hmade hwrite

def Rendering.GoesTo (extension : String) (a : Artifact) (r : Rendering) : Prop :=
  ∃ text, r.outcome = .ok (a.outputName extension, text)

def Rendering.fileFor? (name : String) (r : Rendering) : Option Entry :=
  match r.outcome with
  | .ok (name', text) => if name' = name then some (.file (Text.Utf8.encode text)) else none
  | .error _ => none

theorem Rendering.fileFor?_eq {r : Rendering} {name text : String} (h : r.outcome = .ok (name, text)) (name' : String) :
    r.fileFor? name' = if name = name' then some (.file (Text.Utf8.encode text)) else none := by
  simp only [fileFor?, h]

variable {sink : Sink σ} {held : σ → String → Option Entry} {stored : σ} {extension : String}

theorem Sink.Keeps.store (hk : sink.Keeps held) {a : Artifact} {r : Rendering} (hr : r.GoesTo extension a)
    (hflat : ∀ name, held stored name ≠ some .directory) {path : Path}
    (hpath : (r.store sink stored).1.outcome = .ok path) (name : String) :
    held (r.store sink stored).2 name = (r.fileFor? name).or (held stored name) := by
  obtain ⟨text, hr⟩ := hr
  rw [Rendering.store_ok hr] at hpath ⊢
  rw [hk extension a text stored path hflat hpath name, Rendering.fileFor?_eq hr]
  split <;> rfl

/-- When everything is written, the file of a name is the one that was rendered last under it. -/
theorem Sink.Keeps.deliver (hk : sink.Keeps held) {order : List Artifact} {rs : List Rendering}
    (hrs : List.Forall₂ (Rendering.GoesTo extension) order rs)
    (hwritten : ∀ result ∈ (sink.deliver rs stored).1, ∃ path, result.outcome = .ok path)
    (hflat : ∀ name, held stored name ≠ some .directory) (name : String) :
    held (sink.deliver rs stored).2 name = (rs.reverse.findSome? (Rendering.fileFor? name)).or (held stored name) := by
  induction hrs generalizing stored with
  | nil => rfl
  | @cons a r as rs hr _ ih =>
      rw [Sink.deliver_cons] at hwritten ⊢
      obtain ⟨⟨path, hpath⟩, hrest⟩ := List.forall_mem_cons.mp hwritten
      have hfirst := hk.store hr hflat hpath
      rw [List.reverse_cons, List.findSome?_append, List.findSome?_singleton, Option.or_assoc, ← hfirst]
      refine ih hrest fun name' => ?_
      obtain ⟨text, hr⟩ := hr
      rw [hfirst, Rendering.fileFor?_eq hr]
      split
      · exact nofun
      · exact hflat name'

/-! ## What is left behind -/

namespace Generation

variable {g : Generation} {b : Binder} {order : List Artifact} {recorded : List ArtifactResult} {rs : List Rendering}

theorem renderings_named (order : List Artifact) (b : Binder) (stored : σ) :
    List.Forall₂ (fun a r => ∀ name text, r.outcome = .ok (name, text) → name = a.outputName b.extension)
      order (g.renderings sink order b stored) := by
  induction order generalizing b stored with
  | nil => exact .nil
  | cons a as ih =>
      refine .cons (fun name text h => Artifact.outputName_of_rendering h) ?_
      have hext := (a.like_render g (sink.files stored) b).extension
      exact hext ▸ ih _ _

/-- After a success, everything has been written, and each artifact has been rendered to its file. -/
theorem rendered_of_success (hrecorded : recorded.Perm (g.results sink order b stored).1)
    (hsuccess : (g.reportOf recorded).isSuccess = true) :
    (∀ r ∈ (g.results sink order b stored).1, ∃ path, r.outcome = .ok path) ∧
      List.Forall₂ (Rendering.GoesTo b.extension) order (g.renderings sink order b stored) := by
  have hwritten := (reportOf_errors_eq_nil hrecorded).mp (Report.isSuccess_iff.mp hsuccess).1
  have hrendered : List.Forall₂
      (fun r result => (∃ rendered, r.outcome = .ok rendered) ∧ ∃ path, result.outcome = .ok path)
      (g.renderings sink order b stored) (g.results sink order b stored).1 :=
    ((forall_written_iff (results_told order b stored)).mp hwritten).imp
      fun _ _ ⟨_, _, path, hr, hpath⟩ => ⟨⟨_, hr⟩, path, hpath⟩
  have hall := ((List.forall₂_and_left _ _).mp hrendered).1
  refine ⟨hwritten, (forall₂_and_right (renderings_named order b stored) hall).imp ?_⟩
  rintro a r ⟨hnamed, ⟨name, text⟩, hr⟩
  exact ⟨text, hnamed name text hr ▸ hr⟩

theorem isSome_fileFor? (h : List.Forall₂ (Rendering.GoesTo extension) order rs) (name : String) :
    (rs.reverse.findSome? (Rendering.fileFor? name)).isSome = true ↔ ∃ a ∈ order, a.outputName extension = name := by
  simp only [List.findSome?_isSome_iff, List.mem_reverse]
  induction h with
  | nil => simp
  | @cons a r as rs hr _ ih =>
      obtain ⟨text, hr⟩ := hr
      have hfirst : (r.fileFor? name).isSome = true ↔ a.outputName extension = name := by
        rw [Rendering.fileFor?_eq hr]
        split <;> simp [*]
      simp only [List.mem_cons, or_and_right, exists_or, exists_eq_left, ih, hfirst]

theorem found_of_last (h : List.Forall₂ (Rendering.GoesTo extension) order rs) {i : Nat} {a : Artifact}
    (hi : order[i]? = some a) :
    ∃ r text, rs[i]? = some r ∧ r.outcome = .ok (a.outputName extension, text) ∧
      ((∀ j a', i < j → order[j]? = some a' → ¬ a'.Clash a) →
        rs.reverse.findSome? (Rendering.fileFor? (a.outputName extension)) = some (.file (Text.Utf8.encode text))) := by
  have hnamed : ∀ (j : Nat) (hj : j < order.length) (hj' : j < rs.length), rs[j].GoesTo extension order[j] :=
    fun j hj hj' => h.get hj hj'
  obtain ⟨hlt, rfl⟩ := List.getElem?_eq_some_iff.mp hi
  have hlt' : i < rs.length := h.length_eq ▸ hlt
  obtain ⟨text, htext⟩ := hnamed i hlt hlt'
  refine ⟨_, text, List.getElem?_eq_getElem hlt', htext, fun hclash => ?_⟩
  refine findSome?_reverse_of_last (List.getElem?_eq_getElem hlt') (by rw [Rendering.fileFor?_eq htext, if_pos rfl]) ?_
  intro j r' hij hr'
  obtain ⟨hj', rfl⟩ := List.getElem?_eq_some_iff.mp hr'
  have hj : j < order.length := h.length_eq ▸ hj'
  obtain ⟨text', htext'⟩ := hnamed j hj hj'
  have hne := hclash j _ hij (List.getElem?_eq_getElem hj)
  rw [← Artifact.outputName_eq_iff extension] at hne
  rw [Rendering.fileFor?_eq htext', if_neg hne]

theorem not_clash_of_pairwise (h : order.Pairwise fun a a' => ¬ a.Clash a') {i j : Nat} {a a' : Artifact}
    (hij : i < j) (hi : order[i]? = some a) (hj : order[j]? = some a') : ¬ a'.Clash a := by
  obtain ⟨hilt, rfl⟩ := List.getElem?_eq_some_iff.mp hi
  obtain ⟨hjlt, rfl⟩ := List.getElem?_eq_some_iff.mp hj
  exact fun hclash => List.pairwise_iff_getElem.mp h i j hilt hjlt hij hclash.symm

/-- What is left behind by the names of files, when the artifacts have been taken in some order and each has come to
its rendering. -/
structure Leaves (g : Generation) (b : Binder) (order : List Artifact) (rs : List Rendering)
    (left : String → Option Entry) : Prop where
  count : order.length = 1 + g.schema.boundResolvers.length + g.schema.sources.length
  names : ∀ name, left name ≠ none ↔ ∃ a ∈ g.schema.artifacts, a.outputName b.extension = name
  /-- Each artifact has been rendered to its file, where the text of the last one that goes there is. -/
  texts : ∀ (i : Nat) (a : Artifact), order[i]? = some a →
    ∃ (r : Rendering) (text : String), rs[i]? = some r ∧ r.outcome = .ok (a.outputName b.extension, text) ∧
      ((∀ (j : Nat) (a' : Artifact), i < j → order[j]? = some a' → ¬ a'.Clash a) →
        left (a.outputName b.extension) = some (.file (Text.Utf8.encode text)))
  /-- Where no two artifacts clash, there are as many files as artifacts, each with the text of its own. -/
  all : (g.schema.artifacts.Pairwise fun a a' => ¬ a.Clash a') →
    (∃ names : List String, names.Nodup ∧
      names.length = 1 + g.schema.boundResolvers.length + g.schema.sources.length ∧
      ∀ name, left name ≠ none ↔ name ∈ names) ∧
    List.Forall₂ (fun a r => ∃ text, r.outcome = .ok (a.outputName b.extension, text) ∧
      left (a.outputName b.extension) = some (.file (Text.Utf8.encode text))) order rs

theorem leaves_of_success (hk : sink.Keeps held) (hempty : ∀ name, held stored name = none)
    (horder : order.Perm g.schema.artifacts) (hrecorded : recorded.Perm (g.results sink order b stored).1)
    (hsuccess : (g.reportOf recorded).isSuccess = true) :
    g.Leaves b order (g.renderings sink order b stored) (held (g.results sink order b stored).2) := by
  obtain ⟨hwritten, hrendered⟩ := rendered_of_success hrecorded hsuccess
  have hleft : ∀ name, held (g.results sink order b stored).2 name =
      (g.renderings sink order b stored).reverse.findSome? (Rendering.fileFor? name) := by
    intro name
    rw [results_eq_deliver] at hwritten ⊢
    rw [hk.deliver hrendered hwritten (by simp [hempty]), hempty, Option.or_none]
  have hcount : order.length = 1 + g.schema.boundResolvers.length + g.schema.sources.length :=
    horder.length_eq.trans g.schema.length_artifacts
  have hnames : ∀ name, held (g.results sink order b stored).2 name ≠ none ↔
      ∃ a ∈ order, a.outputName b.extension = name := by
    intro name
    rw [hleft, ← Option.isSome_iff_ne_none, isSome_fileFor? hrendered]
  refine ⟨hcount, ?_, ?_, fun hnone => ⟨⟨order.map (Artifact.outputName b.extension), ?_, ?_, ?_⟩, ?_⟩⟩
  · simpa only [horder.mem_iff] using hnames
  · intro i a hi
    simpa only [← hleft] using found_of_last hrendered hi
  · exact (horder.map _).nodup_iff.mpr ((Artifact.nodup_outputNames b.extension _).mpr hnone)
  · rw [List.length_map, hcount]
  · simpa only [List.mem_map] using hnames
  · have horderNone := (horder.pairwise_iff fun {_ _} h h' => h h'.symm).mpr hnone
    refine List.forall₂_iff_get.mpr ⟨hrendered.length_eq, fun i hi hi' => ?_⟩
    obtain ⟨r, text, hr, htext, hlast⟩ := found_of_last hrendered (List.getElem?_eq_getElem hi)
    rw [List.getElem?_eq_getElem hi', Option.some.injEq] at hr
    subst hr
    refine ⟨text, htext, ?_⟩
    rw [← hleft] at hlast
    exact hlast fun j a' hij ha' => not_clash_of_pairwise horderNone hij (List.getElem?_eq_getElem hi) ha'

theorem run_leaves (hk : sink.Keeps held) (hempty : ∀ name, held stored name = none)
    (hsuccess : (g.run b sink stored).1.isSuccess = true) :
    g.Leaves b g.schema.artifacts (g.renderings sink g.schema.artifacts b stored) (held (g.run b sink stored).2) :=
  leaves_of_success hk hempty (.refl _) (.refl _) (run_eq_reportOf g b sink stored ▸ hsuccess)

end Generation

theorem Settings.run_of_load {s : Settings} {tree : FileTree} {m : Manifest} (h : s.load tree.read = .ok m)
    (at' : Instant) :
    let g : Generation := { schema := m.resolve, generatedAt := at' }
    s.run at' tree = (.ok (g.run s.binder (.directory s.outputPath) tree).1,
      (g.run s.binder (.directory s.outputPath) tree).2) := by
  simp only [run, h]

/-- A run that succeeds leaves its files in the output directory, if nothing was there before. -/
theorem Settings.run_leaves {s : Settings} {at' : Instant} {tree tree' : FileTree} {report : Report}
    (hrun : s.run at' tree = (.ok report, tree')) (hsuccess : report.isSuccess = true)
    (hempty : ∀ name, tree.under s.outputPath name = none) :
    ∃ m, s.load tree.read = .ok m ∧
      let g : Generation := { schema := m.resolve, generatedAt := at' }
      g.Leaves s.binder g.schema.artifacts
        (g.renderings (.directory s.outputPath) g.schema.artifacts s.binder tree) (tree'.under s.outputPath) := by
  cases hload : s.load tree.read with
  | error e =>
      rw [run, hload] at hrun
      cases hrun
  | ok m =>
      rw [run_of_load hload, Prod.mk.injEq, Except.ok.injEq] at hrun
      obtain ⟨rfl, rfl⟩ := hrun
      exact ⟨m, rfl, Generation.run_leaves (Sink.directory_keeps s.outputPath) hempty hsuccess⟩

end ApiManifest
