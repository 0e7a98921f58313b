import ApiManifest.Proofs.Files.Overlay
import ApiManifest.Proofs.Template.Embedding
import ApiManifest.Proofs.Template.Loading

/-!
# The custom root over the standard one

Two template directories serve as one that holds the files of both, where those of the custom one go first.
-/

namespace ApiManifest

/-! ## Outcomes of one kind -/

/-- Both succeed, with results that go together, or both fail with errors of one kind. -/
inductive SameOutcome {α β : Type} (R : α → β → Prop) : Except RenderError α → Except RenderError β → Prop where
  | ok {a : α} {b : β} (h : R a b) : SameOutcome R (.ok a) (.ok b)
  | error {e e' : RenderError} (h : e.kind = e'.kind) : SameOutcome R (.error e) (.error e')

namespace SameOutcome

variable {α β α' β' : Type} {R : α → β → Prop} {S : α' → β' → Prop} {x : Except RenderError α}
  {y : Except RenderError β}

theorem bind {f : α → Except RenderError α'} {g : β → Except RenderError β'} (h : SameOutcome R x y)
    (hfg : ∀ a b, R a b → SameOutcome S (f a) (g b)) : SameOutcome S (x >>= f) (y >>= g) := by
  cases h with
  | ok h => exact hfg _ _ h
  | error h => exact .error h

theorem mapError_kind {y : Except RenderError α} (h : SameOutcome Eq x y) :
    x.mapError RenderError.kind = y.mapError RenderError.kind := by
  cases h with
  | ok h => rw [h]
  | error h => exact congrArg Except.error h

end SameOutcome

/-! ## Rendering -/

namespace TemplateSet

structure SameNodes (s s' : TemplateSet) : Prop where
  wrapper : s.wrapper.nodes = s'.wrapper.nodes
  request : s.request.nodes = s'.request.nodes
  response : s.response.nodes = s'.response.nodes

variable {s s' : TemplateSet} {extension : String} {c : ResolverContext} {out : RenderedResolver}

theorem SameNodes.symm (h : s.SameNodes s') : s'.SameNodes s :=
  ⟨h.wrapper.symm, h.request.symm, h.response.symm⟩

theorem SameNodes.partials (h : s.SameNodes s') (p : String) :
    (s.partials.value? p).map Template.nodes = (s'.partials.value? p).map Template.nodes := by
  simp only [TemplateSet.partials, Dict.value?_cons]
  split
  · simp only [Option.map_some, h.request]
  · split
    · simp only [Option.map_some, h.response]
    · rfl

theorem SameNodes.render_eq_ok (h : s.SameNodes s') (hs : s.render extension c = .ok out) :
    s'.render extension c = .ok out := by
  have hmono {t t' : Template} {text : String} (hnodes : t.nodes = t'.nodes)
      (ht : t.render s.partials c.toJson = .ok text) : t'.render s'.partials c.toJson = .ok text :=
    Template.renderWithin_mono h.partials (Nat.le_refl _) hnodes ht
  simp only [TemplateSet.render, mapError_eq_ok, bind_eq_ok] at hs ⊢
  obtain ⟨request, hrequest, response, hresponse, text, htext, hout⟩ := hs
  exact ⟨request, hmono h.request hrequest, response, hmono h.response hresponse, text, hmono h.wrapper htext, hout⟩

theorem SameNodes.render (h : s.SameNodes s') (extension : String) (c : ResolverContext) :
    SameOutcome Eq (s.render extension c) (s'.render extension c) := by
  cases hs : s.render extension c with
  | ok out =>
      rw [h.render_eq_ok hs]
      exact .ok rfl
  | error e =>
      cases hs' : s'.render extension c with
      | ok out => cases hs.symm.trans (h.symm.render_eq_ok hs')
      | error e' =>
          obtain ⟨failure, rfl⟩ := exists_of_render hs
          obtain ⟨failure', rfl⟩ := exists_of_render hs'
          exact .error rfl

end TemplateSet

/-! ## Loading -/

namespace TemplateRoots

variable {files files' : Reader} {custom standard root name : Path} {T : Template}

def compileAt (path : Path) : Except FileFault (List UInt8) → Except RenderError Template
  | .ok bytes =>
    match Text.Utf8.decode? bytes with
    | some cs => (Template.compile path (String.ofList cs)).mapError (.templateSyntax path)
    | none => .error (.read path)
  | .error _ => .error (.read path)

def loadFirst (files : Reader) (missing : RenderError) : List Path → Except RenderError Template
  | [] => .error missing
  | path :: paths =>
    match files path with
    | .error .missing => loadFirst files missing paths
    | found => compileAt path found

theorem load_eq (files : Reader) (roots : TemplateRoots) (name : Path) :
    roots.load files name =
      loadFirst files (.templateMissing name (roots.candidates name)) (roots.candidates name) := by
  rw [load, read]
  generalize RenderError.templateMissing name (roots.candidates name) = missing
  generalize roots.candidates name = paths
  induction paths with
  | nil => rfl
  | cons path paths ih =>
      rw [readFirst, loadFirst]
      cases files path with
      | ok bytes =>
          dsimp only [compileAt]
          cases Text.Utf8.decode? bytes with
          | none => rfl
          | some cs =>
              simp only [ok_bind, pure_bind]
              cases Template.compile path (String.ofList cs) <;> rfl
      | error e =>
          cases e with
          | missing => exact ih
          | unusable => rfl

theorem compileAt_same (path path' : Path) (found : Except FileFault (List UInt8)) :
    SameOutcome (fun T T' => T.nodes = T'.nodes) (compileAt path found) (compileAt path' found) := by
  cases found with
  | error e => exact .error rfl
  | ok bytes =>
      rw [compileAt, compileAt]
      cases Text.Utf8.decode? bytes with
      | none => exact .error rfl
      | some cs =>
          dsimp only [Template.compile]
          cases Template.parse (String.ofList cs) with
          | ok nodes => exact .ok rfl
          | error e => exact .error rfl

theorem load_same (name : Path) (h : files' (root.join name) =
      FileTree.orElseMissing (files (custom.join name)) (files (standard.join name))) :
    SameOutcome (fun T T' => T.nodes = T'.nodes)
      (({ standard, custom := some custom } : TemplateRoots).load files name)
      (({ standard := root } : TemplateRoots).load files' name) := by
  simp only [load_eq, candidates, Option.toList_some, Option.toList_none, List.singleton_append, List.nil_append,
    List.map_cons, List.map_nil, loadFirst, h]
  cases files (custom.join name) with
  | ok bytes => exact compileAt_same _ _ _
  | error e =>
      cases e with
      | unusable => exact compileAt_same _ _ _
      | missing =>
          dsimp only [FileTree.orElseMissing]
          cases files (standard.join name) with
          | ok bytes => exact compileAt_same _ _ _
          | error e =>
              cases e with
              | unusable => exact compileAt_same _ _ _
              | missing => exact .error rfl

def Compiled (files : Reader) (path : Path) (T : Template) : Prop :=
  ∃ bytes cs, files path = .ok bytes ∧ Text.Utf8.decode? bytes = some cs ∧
    Template.compile path (String.ofList cs) = .ok T

/-- The template stands in the custom root, or in the standard one if nothing is in the custom one. -/
inductive Chosen (files : Reader) (custom standard name : Path) (T : Template) : Prop where
  | custom (h : Compiled files (custom.join name) T)
  | standard (hmissing : files (custom.join name) = .error .missing) (h : Compiled files (standard.join name) T)

theorem compileAt_eq_ok {path : Path} : compileAt path (files path) = .ok T ↔ Compiled files path T := by
  rw [Compiled]
  cases files path with
  | error e => exact ⟨nofun, nofun⟩
  | ok bytes =>
      rw [compileAt]
      cases hd : Text.Utf8.decode? bytes with
      | none => simp [hd]
      | some cs => simp [hd, mapError_eq_ok]

theorem Compiled.exists_ok {path : Path} (h : Compiled files path T) : ∃ bytes, files path = .ok bytes :=
  h.imp fun _ ⟨_, hbytes, _⟩ => hbytes

theorem compileAt_ne_missing {path : Path} (found : Except FileFault (List UInt8)) (searched : List Path) :
    compileAt path found ≠ .error (.templateMissing name searched) := by
  cases found with
  | error e => nofun
  | ok bytes =>
      rw [compileAt]
      cases Text.Utf8.decode? bytes with
      | none => nofun
      | some cs =>
          intro h
          obtain ⟨e, -, he⟩ := mapError_eq_error.mp h
          cases he

theorem loadFirst_cons (files : Reader) (missing : RenderError) (path : Path) (paths : List Path) :
    (files path = .error .missing ∧ loadFirst files missing (path :: paths) = loadFirst files missing paths) ∨
      (files path ≠ .error .missing ∧ loadFirst files missing (path :: paths) = compileAt path (files path)) := by
  rw [loadFirst]
  cases files path with
  | ok bytes => exact .inr ⟨nofun, rfl⟩
  | error e =>
      cases e with
      | missing => exact .inl ⟨rfl, rfl⟩
      | unusable => exact .inr ⟨nofun, rfl⟩

theorem load_cases (files : Reader) (custom standard name : Path) :
    let loaded := ({ standard, custom := some custom } : TemplateRoots).load files name
    (files (custom.join name) ≠ .error .missing ∧ loaded = compileAt (custom.join name) (files (custom.join name))) ∨
      (files (custom.join name) = .error .missing ∧ files (standard.join name) ≠ .error .missing ∧
        loaded = compileAt (standard.join name) (files (standard.join name))) ∨
      (files (custom.join name) = .error .missing ∧ files (standard.join name) = .error .missing ∧
        loaded = .error (.templateMissing name [custom.join name, standard.join name])) := by
  dsimp only
  rw [load_eq]
  change _ ∧ loadFirst files (.templateMissing name [_, _]) [custom.join name, standard.join name] = _ ∨ _
  rcases loadFirst_cons files (.templateMissing name [custom.join name, standard.join name]) (custom.join name)
    [standard.join name] with ⟨hcustom, hload⟩ | ⟨hcustom, hload⟩
  · rcases loadFirst_cons files (.templateMissing name [custom.join name, standard.join name]) (standard.join name)
      [] with ⟨hstandard, hload'⟩ | ⟨hstandard, hload'⟩
    · exact .inr (.inr ⟨hcustom, hstandard, hload.trans hload'⟩)
    · exact .inr (.inl ⟨hcustom, hstandard, hload.trans hload'⟩)
  · exact .inl ⟨hcustom, hload⟩

theorem load_eq_ok : ({ standard, custom := some custom } : TemplateRoots).load files name = .ok T ↔
    Chosen files custom standard name T := by
  constructor
  · intro h
    rcases load_cases files custom standard name with ⟨-, hload⟩ | ⟨hmissing, -, hload⟩ | ⟨-, -, hload⟩
    · exact .custom (compileAt_eq_ok.mp (hload.symm.trans h))
    · exact .standard hmissing (compileAt_eq_ok.mp (hload.symm.trans h))
    · cases hload.symm.trans h
  · rintro (h | ⟨hmissing, h⟩)
    · rcases load_cases files custom standard name with ⟨-, hload⟩ | ⟨hmissing, -⟩ | ⟨hmissing, -⟩
      · exact hload.trans (compileAt_eq_ok.mpr h)
      all_goals
        obtain ⟨bytes, hbytes⟩ := h.exists_ok
        cases hmissing.symm.trans hbytes
    · rcases load_cases files custom standard name with ⟨hfound, -⟩ | ⟨-, -, hload⟩ | ⟨-, hmissing', -⟩
      · exact absurd hmissing hfound
      · exact hload.trans (compileAt_eq_ok.mpr h)
      · obtain ⟨bytes, hbytes⟩ := h.exists_ok
        cases hmissing'.symm.trans hbytes

theorem load_eq_missing {name' : Path} {searched : List Path} :
    ({ standard, custom := some custom } : TemplateRoots).load files name = .error (.templateMissing name' searched) ↔
      (files (custom.join name) = .error .missing ∧ files (standard.join name) = .error .missing) ∧
        name' = name ∧ searched = [custom.join name, standard.join name] := by
  rcases load_cases files custom standard name with ⟨hfound, hload⟩ | ⟨-, hfound, hload⟩ | ⟨hmissing, hmissing', hload⟩
  · rw [hload]
    exact ⟨fun h => absurd h (compileAt_ne_missing _ _), fun h => absurd h.1.1 hfound⟩
  · rw [hload]
    exact ⟨fun h => absurd h (compileAt_ne_missing _ _), fun h => absurd h.1.2 hfound⟩
  · simp only [hload, hmissing, hmissing', Except.error.injEq, RenderError.templateMissing.injEq, and_self, true_and,
      eq_comm]

end TemplateRoots

namespace TemplateSet

variable {files files' : Reader} {roots : TemplateRoots} {key : TemplateKey} {e : RenderError} {set : TemplateSet}

theorem load_eq_ok : load files roots key = .ok set ↔
    roots.load files wrapperPath = .ok set.wrapper ∧ roots.load files key.requestPath = .ok set.request ∧
      roots.load files key.responsePath = .ok set.response := by
  simp only [load, bind_eq_ok, pure_eq_ok]
  constructor
  · rintro ⟨wrapper, hwrapper, request, hrequest, response, hresponse, rfl⟩
    exact ⟨hwrapper, hrequest, hresponse⟩
  · rintro ⟨hwrapper, hrequest, hresponse⟩
    exact ⟨_, hwrapper, _, hrequest, _, hresponse, rfl⟩

theorem load_eq_error : load files roots key = .error e ↔
    ∃ front name back, key.templates = front ++ name :: back ∧
      (∀ before ∈ front, ∃ T, roots.load files before = .ok T) ∧ roots.load files name = .error e := by
  rw [← mapM_eq_error, TemplateKey.templates]
  have hpure {α : Type} (a : α) : (pure a : Except RenderError α) ≠ .error e := by
    intro h
    cases h
  simp only [load, List.mapM_cons, List.mapM_nil, bind_eq_error, hpure, and_false, exists_false, or_false]

theorem load_same {two one : TemplateRoots}
    (h : ∀ name ∈ key.templates,
      SameOutcome (fun T T' => T.nodes = T'.nodes) (two.load files name) (one.load files' name)) :
    SameOutcome SameNodes (load files two key) (load files' one key) := by
  simp only [TemplateKey.templates, List.forall_mem_cons] at h
  obtain ⟨hwrapper, hrequest, hresponse, -⟩ := h
  refine hwrapper.bind fun _ _ hw => hrequest.bind fun _ _ hq => hresponse.bind fun _ _ hs => ?_
  exact .ok ⟨hw, hq, hs⟩

end TemplateSet

/-! ## Rendering resolvers -/

namespace TemplateKey

theorem isPlain_fileName {key : TemplateKey} (h : '/' ∉ key.template.toList) : Path.IsPlain key.fileName := by
  have hslash : '/' ∉ key.fileName.toList := by
    rw [fileName]
    split <;> simp [h]
  rw [Path.IsPlain, Path.names_of_notMem hslash, List.forall_mem_singleton]
  -- the name ends as all of them do, and is longer than two points
  have hlength : 5 ≤ key.fileName.length := by
    simp only [fileName, String.length_append]
    exact Nat.le_add_left 5 _
  refine ⟨?_, ?_, ?_⟩ <;> intro heq <;> rw [heq] at hlength <;> exact absurd hlength (by decide)

theorem isPlain_templates {key : TemplateKey} (h : '/' ∉ key.template.toList) :
    ∀ name ∈ key.templates, name.IsPlain := by
  have hkind (part : Path) (hpart : part.IsPlain) : (Path.join key.kind.name part).IsPlain :=
    Path.IsPlain.join (by cases key.kind <;> decide) hpart
  simp only [templates, List.forall_mem_cons]
  refine ⟨by decide, ?_, ?_, by simp⟩
  · exact (hkind "request" (by decide)).join (isPlain_fileName h)
  · exact (hkind "response" (by decide)).join (isPlain_fileName h)

end TemplateKey

namespace Binder

theorem bind_fresh (files : Reader) (roots : TemplateRoots) (extension apiName : String) (sources : Dict DataSource)
    (at' : Instant) (r : Resolver) :
    (({ roots, extension } : Binder).bind files apiName sources at' r).1 = (do
      let (binding, source) ← prepare sources r
      let set ← TemplateSet.load files roots (.ofBinding binding)
      set.render extension { apiName, resolver := r, binding, source, generatedAt := at' }) := by
  simp only [bind_fst, templateSet_eq, fetch_fst]
  rfl

/-- A template is missed exactly if the resolver has passed its guards and the first of the three templates that fails
stands under neither root. -/
theorem bind_eq_missing {files : Reader} {custom standard name : Path} {extension apiName : String}
    {sources : Dict DataSource} {at' : Instant} {r : Resolver} {b : Binding} (hb : r.binding = some b)
    {searched : List Path} :
    let two : TemplateRoots := { standard, custom := some custom }
    (({ roots := two, extension } : Binder).bind files apiName sources at' r).1 =
        .error (.templateMissing name searched) ↔
      (∃ p, prepare sources r = .ok p) ∧ ∃ front back, (TemplateKey.ofBinding b).templates = front ++ name :: back ∧
        (∀ before ∈ front, ∃ T, two.load files before = .ok T) ∧
        (files (custom.join name) = .error .missing ∧ files (standard.join name) = .error .missing) ∧
        searched = [custom.join name, standard.join name] := by
  intro two
  rw [bind_fresh]
  cases hp : prepare sources r with
  | error e =>
      rcases exists_of_prepare hp with rfl | ⟨failure, rfl⟩ <;> simp [error_bind]
  | ok p =>
      obtain ⟨binding, source⟩ := p
      obtain rfl := Option.some.inj ((prepare_binding hp).symm.trans hb)
      have hrender (set : TemplateSet) :
          set.render extension { apiName, resolver := r, binding, source, generatedAt := at' } ≠
            .error (.templateMissing name searched) := by
        intro h
        obtain ⟨failure, hfailure⟩ := TemplateSet.exists_of_render h
        cases hfailure
      simp only [ok_bind, bind_eq_error, hrender, and_false, exists_false, or_false, TemplateSet.load_eq_error,
        Except.ok.injEq, exists_eq', true_and]
      constructor
      · rintro ⟨front, name', back, hsplit, hfront, hload⟩
        obtain ⟨hmissing, rfl, rfl⟩ := TemplateRoots.load_eq_missing.mp hload
        exact ⟨front, back, hsplit, hfront, hmissing, rfl⟩
      · rintro ⟨front, back, hsplit, hfront, hmissing, rfl⟩
        exact ⟨front, name, back, hsplit, hfront, TemplateRoots.load_eq_missing.mpr ⟨hmissing, rfl, rfl⟩⟩

/-- Two roots, and one that holds the custom tree over the standard one: a resolver is rendered alike, or it fails with
the same kind of error. Each of the three templates is chosen on its own, and is missed only if nothing is found for it
in either root. The paths are not longer than paths may be. -/
theorem bind_overlay {c s t t' : FileTree} {custom standard root : Path} (hc : c.Closed) (hs : s.Closed)
    (hcompatible : c.Compatible s) (hcustom : t.Holds custom c) (hstandard : t.Holds standard s)
    (hroot : t'.Holds root (c.overlay s)) {r : Resolver} {b : Binding} (hb : r.binding = some b)
    (hplain : '/' ∉ b.template.toList)
    (hlength : ∀ name ∈ (TemplateKey.ofBinding b).templates, ∀ p ∈ [custom, standard, root],
      (Path.join p name).utf8ByteSize ≤ FileTree.maxPath)
    (extension apiName : String) (sources : Dict DataSource) (at' : Instant) :
    let two : TemplateRoots := { standard, custom := some custom }
    let one : TemplateRoots := { standard := root }
    let key := TemplateKey.ofBinding b
    let rendered := (({ roots := two, extension } : Binder).bind t.read apiName sources at' r).1
    (c.overlay s).Closed ∧
      rendered.mapError RenderError.kind =
        (({ roots := one, extension } : Binder).bind t'.read apiName sources at' r).1.mapError RenderError.kind ∧
      (∀ set, TemplateSet.load t.read two key = .ok set ↔
        TemplateRoots.Chosen t.read custom standard wrapperPath set.wrapper ∧
          TemplateRoots.Chosen t.read custom standard key.requestPath set.request ∧
          TemplateRoots.Chosen t.read custom standard key.responsePath set.response) ∧
      ∀ name searched, rendered = .error (.templateMissing name searched) ↔
        (∃ p, prepare sources r = .ok p) ∧ ∃ front back, key.templates = front ++ name :: back ∧
          (∀ before ∈ front, ∃ T, two.load t.read before = .ok T) ∧
          (t.read (custom.join name) = .error .missing ∧ t.read (standard.join name) = .error .missing) ∧
          searched = [custom.join name, standard.join name] := by
  intro two one key rendered
  refine ⟨hc.overlay hs hcompatible, ?_, fun set => ?_, fun name searched => bind_eq_missing hb⟩
  · have hload :
        SameOutcome TemplateSet.SameNodes (TemplateSet.load t.read two key) (TemplateSet.load t'.read one key) :=
      TemplateSet.load_same fun name hname => TemplateRoots.load_same name <|
        FileTree.Holds.read_overlay hc hs hcompatible hcustom hstandard hroot
          (TemplateKey.isPlain_templates hplain name hname) (hlength name hname)
    apply SameOutcome.mapError_kind
    simp only [rendered, bind_fresh]
    cases hp : prepare sources r with
    | error e => exact .error rfl
    | ok p =>
        obtain ⟨binding, source⟩ := p
        obtain rfl := Option.some.inj ((prepare_binding hp).symm.trans hb)
        exact hload.bind fun _ _ h => h.render extension _
  · simp only [TemplateSet.load_eq_ok, two, TemplateRoots.load_eq_ok, key]

def standardGet : FileTree :=
  { entries := [(["resolver.tmpl"], .file (Text.Utf8.encode "ask and tell")), (["lambda"], .directory),
      (["lambda", "request"], .directory), (["lambda", "request", "get.tmpl"], .file (Text.Utf8.encode "ask")),
      (["lambda", "response"], .directory), (["lambda", "response", "get.tmpl"], .file (Text.Utf8.encode "tell"))] }

def customGet : FileTree :=
  { entries := [(["lambda"], .directory), (["lambda", "request"], .directory),
      (["lambda", "request", "get.tmpl"], .file (Text.Utf8.encode "ask politely"))] }

/-- Of the templates for what a query asks for, the request is replaced and the response is not. -/
theorem customGet_over_standardGet :
    let t := (({} : FileTree).mount ["templates"] standardGet).mount ["mine"] customGet
    let t' := ({} : FileTree).mount ["both"] (customGet.overlay standardGet)
    let r := (animalSite.bind { source := "default", action := "get" }).1
    let two : Binder := { roots := { standard := "templates", custom := some "mine" }, extension := "tf" }
    let one : Binder := { roots := { standard := "both" }, extension := "tf" }
    ∃ out, (two.bind t.read "zoo" animalSite.sources {} r).1 = .ok out ∧ out.request = "ask politely" ∧
      out.response = "tell" ∧ (one.bind t'.read "zoo" animalSite.sources {} r).1 = .ok out := by
  intro t t' r two one
  have check : (two.bind t.read "zoo" animalSite.sources {} r).1.toOption.map (fun out => (out.request, out.response)) =
      some ("ask politely", "tell") := by
    decide +kernel
  obtain ⟨out, hout, htexts⟩ := toOption_map_eq_some.mp check
  obtain ⟨hrequest, hresponse⟩ := Prod.mk.inj htexts
  refine ⟨out, hout, hrequest, hresponse, ?_⟩
  have hmine : t.Holds "mine" customGet := ⟨["mine"], by rfl, FileTree.entry?_mount customGet (by decide) (by decide)⟩
  have htemplates : t.Holds "templates" standardGet := by
    refine ⟨["templates"], by rfl, fun below => ?_⟩
    rw [FileTree.entry?_mount_of_not_prefix customGet (by simp)]
    exact FileTree.entry?_mount standardGet (by decide) (by decide) below
  have hboth : t'.Holds "both" (customGet.overlay standardGet) :=
    ⟨["both"], by rfl, FileTree.entry?_mount _ (by decide) (by decide)⟩
  have hbinding : r.binding.map (fun b => (b.sourceKind, b.template, b.isNested)) = some (.lambda, "get", false) := by
    decide
  obtain ⟨b, hb, hkey⟩ := Option.map_eq_some_iff.mp hbinding
  obtain ⟨hkind, htemplate, hnested⟩ : _ ∧ _ ∧ _ := by simpa only [Prod.mk.injEq] using hkey
  have hkey' : TemplateKey.ofBinding b = { kind := .lambda, template := "get", isNested := false } := by
    rw [TemplateKey.ofBinding, hkind, htemplate, hnested]
  have hkinds := (bind_overlay (by decide) (by decide) (by decide) hmine htemplates hboth hb (by rw [htemplate]; decide)
    (by rw [hkey']; decide) "tf" "zoo" animalSite.sources {}).2.1
  rw [hout] at hkinds
  exact mapError_eq_ok.mp hkinds.symm

end Binder

end ApiManifest
