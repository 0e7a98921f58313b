import ApiManifest.Proofs.Schema.Binding
import ApiManifest.Proofs.Template.Cache
import ApiManifest.Proofs.Template.Inlining
import ApiManifest.Template.Printer

/-!
# Fragments in their wrapper

The request and the response of a resolver are rendered on their own, and again inside of the wrapper, where fewer
levels of inclusion are left. How many are left makes no difference to a rendering that succeeds, so that the wrapper
holds the very texts that come with it.
-/

namespace ApiManifest

namespace Template

variable {partials partials' : Dict Template} {context : Json}

/-! ## The levels that are left -/

section

variable {name name' : String} {inc inc' : String → Except Failure String}

mutual
theorem Node.render_of_included (hinc : ∀ p out, inc p = .ok out → inc' p = .ok out) :
    (node : Node) → ∀ out, node.render name inc context = .ok out → node.render name' inc' context = .ok out
  | .text _, _, h => h
  | .value path, out, h => by
      rw [Node.render] at h ⊢
      cases hv : lookup context path with
      | none =>
          rw [hv] at h
          cases h
      | some v =>
          rw [hv] at h
          exact h
  | .include p, out, h => hinc p out h
  | .cond path a b, out, h => by
      rw [render_cond] at h ⊢
      by_cases hc : holds context path = true
      · rw [if_pos hc] at h ⊢
        exact renderNodes_of_included hinc a out h
      · rw [if_neg hc] at h ⊢
        exact renderNodes_of_included hinc b out h

theorem renderNodes_of_included (hinc : ∀ p out, inc p = .ok out → inc' p = .ok out) :
    (nodes : List Node) → ∀ out, renderNodes name inc context nodes = .ok out →
      renderNodes name' inc' context nodes = .ok out
  | [], _, h => h
  | node :: nodes, out, h => by
      obtain ⟨first, hfirst, rest, hrest, hout⟩ := renderNodes_cons_eq_ok.mp h
      exact renderNodes_cons_eq_ok.mpr ⟨first, node.render_of_included hinc first hfirst, rest,
        renderNodes_of_included hinc nodes rest hrest, hout⟩
end

theorem included_mono (hpartials : ∀ p, (partials.value? p).map nodes = (partials'.value? p).map nodes)
    {levels levels' : Nat} (hle : levels ≤ levels') {p out : String}
    (h : included partials context name levels p = .ok out) : included partials' context name' levels' p = .ok out := by
  induction levels generalizing levels' name name' p out with
  | zero => cases h
  | succ levels ih =>
      obtain ⟨more, rfl⟩ := Nat.exists_eq_add_of_le hle
      rw [Nat.add_right_comm, included]
      rw [included] at h
      cases hp : partials.value? p with
      | none =>
          rw [hp] at h
          cases h
      | some t =>
          obtain ⟨t', hp', hnodes⟩ := Option.map_eq_some_iff.mp ((hpartials p).symm.trans (by rw [hp]; rfl))
          simp only [hp, hp', renderWithin_eq, hnodes] at h ⊢
          exact renderNodes_of_included (fun _ _ => ih (Nat.le_add_right _ _)) t.nodes out h

end

theorem renderWithin_mono (hpartials : ∀ p, (partials.value? p).map nodes = (partials'.value? p).map nodes)
    {levels levels' : Nat} (hle : levels ≤ levels') {t t' : Template} (hnodes : t.nodes = t'.nodes) {out : String}
    (h : renderWithin partials context levels t = .ok out) : renderWithin partials' context levels' t' = .ok out := by
  rw [renderWithin_eq] at h ⊢
  rw [← hnodes]
  exact renderNodes_of_included (fun _ _ => included_mono hpartials hle) t.nodes out h

/-- A partial that is included comes to the text that it has on its own. -/
theorem included_eq_render {name p s out : String} {t : Template} {levels : Nat} (hle : levels ≤ maxDepth)
    (hp : partials.value? p = some t) (ht : t.render partials context = .ok out)
    (hs : included partials context name levels p = .ok s) : s = out := by
  cases levels with
  | zero => cases hs
  | succ levels =>
      rw [included, hp] at hs
      have hs := renderWithin_mono (fun _ => rfl) (Nat.le_of_succ_le hle) rfl hs
      exact Except.ok.inj (hs.symm.trans ht)

/-! ## Texts in the place of inclusions -/

/-- The template with texts in the place of the inclusions of these names, in the branches that are taken and in the
others: what a branch that is not taken includes makes no difference. -/
def embed (texts : Dict String) (t : Template) : Template :=
  { t with nodes := inlineNodes (fun p => (texts.value? p).map fun s => [.text s]) t.nodes }

theorem render_embed {texts : Dict String} {t : Template} {out : String}
    (htexts : ∀ p s, included partials context t.name maxDepth p = .ok s → texts.value? p = some s)
    (h : t.render partials context = .ok out) : (t.embed texts).render [] context = .ok out := by
  -- the texts themselves are a way to include, which gives what the partials give
  let given (p : String) : Except Failure String :=
    (texts.value? p).elim (.error ⟨t.name, .unknownPartial p⟩) .ok
  have hgiven : renderNodes t.name given context t.nodes = .ok out := by
    rw [render, renderWithin_eq] at h
    refine renderNodes_of_included (fun p s hs => ?_) t.nodes out h
    simp only [given, htexts p s hs, Option.elim_some]
  rw [render, renderWithin_eq]
  refine (render_nodes_inline included_nil_ne_ok (fun p s => ?_) t.nodes out).mp hgiven
  cases hp : texts.value? p with
  | none => simp [given, hp]
  | some s' => simp [given, hp, renderNodes_singleton_eq_ok, Node.render]

end Template

/-! ## Resolvers -/

namespace TemplateSet

variable {s : TemplateSet} {extension : String} {c : ResolverContext} {out : RenderedResolver}

theorem of_render_eq_ok (h : s.render extension c = .ok out) :
    s.request.render s.partials c.toJson = .ok out.request ∧ s.response.render s.partials c.toJson = .ok out.response ∧
      s.wrapper.render s.partials c.toJson = .ok out.text := by
  simp only [TemplateSet.render, mapError_eq_ok, bind_eq_ok, pure_eq_ok] at h
  obtain ⟨request, hrequest, response, hresponse, text, htext, rfl⟩ := h
  exact ⟨hrequest, hresponse, htext⟩

theorem fragments_included (h : s.render extension c = .ok out) {name p text : String}
    (hp : Template.included s.partials c.toJson name Template.maxDepth p = .ok text) :
    Dict.value? [("request", out.request), ("response", out.response)] p = some text := by
  obtain ⟨hrequest, hresponse, -⟩ := of_render_eq_ok h
  have hvalue : s.partials.value? p =
      if "request" = p then some s.request else if "response" = p then some s.response else none := by
    simp only [partials, Dict.value?_cons]
    rfl
  simp only [Dict.value?_cons]
  by_cases hreq : "request" = p
  · rw [if_pos hreq] at hvalue
    rw [if_pos hreq, Template.included_eq_render (Nat.le_refl _) hvalue hrequest hp]
  · rw [if_neg hreq] at hvalue
    by_cases hres : "response" = p
    · rw [if_pos hres] at hvalue
      rw [if_neg hreq, if_pos hres, Template.included_eq_render (Nat.le_refl _) hvalue hresponse hp]
    · rw [if_neg hres] at hvalue
      rw [Template.maxDepth, Template.included, hvalue] at hp
      cases hp

end TemplateSet

/-- What is rendered for a resolver: its fragments, each on its own, and the wrapper with the texts of these in the
place of their inclusions, all three on one value. -/
theorem Binder.bind_embeds {files : Reader} {apiName : String} {sources : Dict DataSource} {at' : Instant}
    {r : Resolver} {b : Binder} {out : RenderedResolver} (h : (b.bind files apiName sources at' r).1 = .ok out) :
    ∃ binding source set, prepare sources r = .ok (binding, source) ∧
      (b.templateSet files (.ofBinding binding)).1 = .ok set ∧
      let c : ResolverContext := { apiName, resolver := r, binding, source, generatedAt := at' }
      set.request.render set.partials c.toJson = .ok out.request ∧
      set.response.render set.partials c.toJson = .ok out.response ∧
      (set.wrapper.embed [("request", out.request), ("response", out.response)]).render [] c.toJson = .ok out.text := by
  rw [bind_fst] at h
  obtain ⟨⟨binding, source⟩, hprepare, set, hset, hrender⟩ := by simpa only [bind_eq_ok] using h
  obtain ⟨hrequest, hresponse, htext⟩ := TemplateSet.of_render_eq_ok hrender
  refine ⟨binding, source, set, hprepare, hset, hrequest, hresponse, ?_⟩
  exact Template.render_embed (fun p s hs => TemplateSet.fragments_included hrender hs) htext

def entangled : Dict (List Template.Node) :=
  [("t/resolver.tmpl", [.cond "isNested" [.include "response"] [.include "request", .text "; "], .include "response"]),
    ("t/lambda/request/get.tmpl", [.text "ask for ", .value "fieldName", .text ", ", .include "response"]),
    ("t/lambda/response/get.tmpl", [.cond "isNested" [.include "request"] [.text "tell"]])]

theorem entangled_embeds :
    let files : Reader := fun path =>
      match entangled.value? path with
      | some nodes => .ok (Text.Utf8.encode (Template.printNodes nodes))
      | none => .error .missing
    let b : Binder := { roots := { standard := "t" }, extension := "tf" }
    let r := (animalSite.bind { source := "default", action := "get" }).1
    ∃ out, (b.bind files "zoo" animalSite.sources {} r).1 = .ok out ∧
      out.request = "ask for animal, tell" ∧ out.response = "tell" ∧ out.text = "ask for animal, tell; tell" ∧
      ∃ (set : TemplateSet) (value : Json), set.request.render set.partials value = .ok out.request ∧
        set.response.render set.partials value = .ok out.response ∧
        (set.wrapper.embed [("request", out.request), ("response", out.response)]).render [] value = .ok out.text := by
  intro files b r
  have check : (b.bind files "zoo" animalSite.sources {} r).1.toOption.map (fun out =>
      (out.request, out.response, out.text)) = some ("ask for animal, tell", "tell", "ask for animal, tell; tell") := by
    decide +kernel
  obtain ⟨out, hout, htexts⟩ := toOption_map_eq_some.mp check
  obtain ⟨hrequest, hresponse, htext⟩ : _ ∧ _ ∧ _ := by simpa only [Prod.mk.injEq] using htexts
  obtain ⟨_, _, set, _, _, hparts⟩ := Binder.bind_embeds hout
  exact ⟨out, hout, hrequest, hresponse, htext, set, _, hparts⟩

end ApiManifest
