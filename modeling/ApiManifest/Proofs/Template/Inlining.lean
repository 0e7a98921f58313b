import ApiManifest.Proofs.Except
import ApiManifest.Template.Render

/-!
# Inclusion as inlining

Rendering with partials comes to the same as rendering without any, once the partials stand in the place of
their inclusions, eight levels deep. What is nested deeper matters only where rendering comes to it.
-/

namespace ApiManifest.Template

variable {partials : Dict Template} {context : Json}

/-! ## Executing nodes -/

/-- What executing nodes comes to, in the template of that name and inside so many inclusions. The rules say
what is done next; that this comes to an end they do not say. -/
inductive Gives (partials : Dict Template) (context : Json) : Nat → String → List Node → Except Failure String → Prop where
  | nil {depth name} : Gives partials context depth name [] (.ok "")
  | text {depth name s nodes out} (rest : Gives partials context depth name nodes out) :
      Gives partials context depth name (.text s :: nodes) (out.map (s ++ ·))
  | value {depth name path v nodes out} (found : lookup context path = some v)
      (rest : Gives partials context depth name nodes out) :
      Gives partials context depth name (.value path :: nodes) (out.map (write v ++ ·))
  | noValue {depth name path nodes} (none : lookup context path = none) :
      Gives partials context depth name (.value path :: nodes) (.error ⟨name, .noValue path⟩)
  | include {depth name p t s nodes out} (shallow : depth < 8) (found : partials.value? p = some t)
      (inside : Gives partials context (depth + 1) t.name t.nodes (.ok s))
      (rest : Gives partials context depth name nodes out) :
      Gives partials context depth name (.include p :: nodes) (out.map (s ++ ·))
  | includeFails {depth name p t e nodes} (shallow : depth < 8) (found : partials.value? p = some t)
      (inside : Gives partials context (depth + 1) t.name t.nodes (.error e)) :
      Gives partials context depth name (.include p :: nodes) (.error e)
  | unknown {depth name p nodes} (shallow : depth < 8) (none : partials.value? p = none) :
      Gives partials context depth name (.include p :: nodes) (.error ⟨name, .unknownPartial p⟩)
  | tooDeep {depth name p nodes} (deep : 8 ≤ depth) :
      Gives partials context depth name (.include p :: nodes) (.error ⟨name, .tooDeep p⟩)
  | cond {depth name path a b s nodes out}
      (branch : Gives partials context depth name (if holds context path then a else b) (.ok s))
      (rest : Gives partials context depth name nodes out) :
      Gives partials context depth name (.cond path a b :: nodes) (out.map (s ++ ·))
  | condFails {depth name path a b e nodes}
      (branch : Gives partials context depth name (if holds context path then a else b) (.error e)) :
      Gives partials context depth name (.cond path a b :: nodes) (.error e)

def included (partials : Dict Template) (context : Json) (name : String) : Nat → String → Except Failure String
  | 0, p => .error ⟨name, .tooDeep p⟩
  | levels + 1, p =>
    match partials.value? p with
    | some t => renderWithin partials context levels t
    | none => .error ⟨name, .unknownPartial p⟩

theorem renderWithin_eq (levels : Nat) (t : Template) :
    renderWithin partials context levels t = renderNodes t.name (included partials context t.name levels) context t.nodes := by
  cases levels <;> rfl

/-! ## Rendering node by node -/

section

variable {name : String} {inc : String → Except Failure String} {node : Node} {nodes : List Node} {s out : String}

theorem renderNodes_of_ok (h : node.render name inc context = .ok s) :
    renderNodes name inc context (node :: nodes) = (renderNodes name inc context nodes).map (s ++ ·) := by
  rw [renderNodes, h]
  cases renderNodes name inc context nodes <;> rfl

theorem renderNodes_of_error {e : Failure} (h : node.render name inc context = .error e) :
    renderNodes name inc context (node :: nodes) = .error e := by
  rw [renderNodes, h]
  rfl

theorem render_cond {path : String} {a b : List Node} :
    (Node.cond path a b).render name inc context =
      renderNodes name inc context (if holds context path then a else b) := by
  rw [Node.render]
  split <;> rfl

theorem renderNodes_cons_eq_ok :
    renderNodes name inc context (node :: nodes) = .ok out ↔
      ∃ first, node.render name inc context = .ok first ∧ ∃ rest, renderNodes name inc context nodes = .ok rest ∧
        first ++ rest = out := by
  simp only [renderNodes, bind_eq_ok, pure_eq_ok]

theorem renderNodes_singleton_eq_ok :
    renderNodes name inc context [node] = .ok out ↔ node.render name inc context = .ok out := by
  rw [renderNodes_cons_eq_ok]
  simp [renderNodes]

theorem renderNodes_append_eq_ok {more : List Node} :
    renderNodes name inc context (nodes ++ more) = .ok out ↔
      ∃ first, renderNodes name inc context nodes = .ok first ∧ ∃ rest, renderNodes name inc context more = .ok rest ∧
        first ++ rest = out := by
  induction nodes generalizing out with
  | nil => simp [renderNodes]
  | cons node nodes ih =>
      simp only [List.cons_append, renderNodes_cons_eq_ok, ih]
      constructor
      · rintro ⟨x, hx, _, ⟨y, hy, z, hz, rfl⟩, rfl⟩
        exact ⟨x ++ y, ⟨x, hx, y, hy, rfl⟩, z, hz, String.append_assoc⟩
      · rintro ⟨_, ⟨x, hx, y, hy, rfl⟩, z, hz, rfl⟩
        exact ⟨x, hx, y ++ z, ⟨y, hy, z, hz, rfl⟩, String.append_assoc.symm⟩

end

/-! ## Executing and rendering -/

theorem exists_level {depth levels : Nat} (h : depth + levels = maxDepth) (shallow : depth < 8) :
    ∃ less, levels = less + 1 ∧ depth + 1 + less = maxDepth := by
  rw [maxDepth] at h ⊢
  exact ⟨levels - 1, by omega, by omega⟩

theorem Gives.eq_renderNodes {depth levels : Nat} {name : String} {nodes : List Node} {out : Except Failure String}
    (h : Gives partials context depth name nodes out) (hdepth : depth + levels = maxDepth) :
    renderNodes name (included partials context name levels) context nodes = out := by
  -- the inclusions around the nodes and the levels left for more of them are eight at each step
  induction h generalizing levels with
  | nil => rfl
  | text _ ih => rw [renderNodes_of_ok rfl, ih hdepth]
  | value found _ ih => rw [renderNodes_of_ok (by rw [Node.render, found]), ih hdepth]
  | noValue none => exact renderNodes_of_error (by rw [Node.render, none])
  | @«include» depth name p t s nodes out shallow found _ _ ihi ih =>
      obtain ⟨less, rfl, hless⟩ := exists_level hdepth shallow
      have hinside : (Node.include p).render name (included partials context name (less + 1)) context = .ok s := by
        simp only [Node.render, included, found, renderWithin_eq]
        exact ihi hless
      rw [renderNodes_of_ok hinside, ih hdepth]
  | @includeFails depth name p t e nodes shallow found _ ihi =>
      obtain ⟨less, rfl, hless⟩ := exists_level hdepth shallow
      refine renderNodes_of_error ?_
      simp only [Node.render, included, found, renderWithin_eq]
      exact ihi hless
  | unknown shallow none =>
      obtain ⟨less, rfl, _⟩ := exists_level hdepth shallow
      exact renderNodes_of_error (by simp only [Node.render, included, none])
  | tooDeep deep =>
      rw [maxDepth] at hdepth
      obtain rfl : levels = 0 := by omega
      exact renderNodes_of_error rfl
  | cond _ _ ihb ih => rw [renderNodes_of_ok (render_cond.trans (ihb hdepth)), ih hdepth]
  | condFails _ ihb => exact renderNodes_of_error (render_cond.trans (ihb hdepth))

section

variable {depth levels : Nat} {name : String}

mutual
theorem Node.gives (hdepth : depth + levels = maxDepth)
    (hinc : ∀ p t less, partials.value? p = some t → levels = less + 1 →
      Gives partials context (depth + 1) t.name t.nodes (renderWithin partials context less t)) :
    (node : Node) → ∀ nodes,
      Gives partials context depth name nodes (renderNodes name (included partials context name levels) context nodes) →
      Gives partials context depth name (node :: nodes)
        (renderNodes name (included partials context name levels) context (node :: nodes))
  | .text s, nodes, h => by
      rw [renderNodes_of_ok rfl]
      exact .text h
  | .value path, nodes, h => by
      cases hv : lookup context path with
      | none =>
          rw [renderNodes_of_error (by rw [Node.render, hv])]
          exact .noValue hv
      | some v =>
          rw [renderNodes_of_ok (by rw [Node.render, hv])]
          exact .value hv h
  | .include p, nodes, h => by
      cases levels with
      | zero =>
          rw [renderNodes_of_error rfl]
          exact .tooDeep (Nat.le_of_eq hdepth.symm)
      | succ less =>
          have shallow : depth < 8 := by
            rw [maxDepth] at hdepth
            omega
          cases hp : partials.value? p with
          | none =>
              rw [renderNodes_of_error (e := ⟨name, .unknownPartial p⟩) (by simp only [Node.render, included, hp])]
              exact .unknown shallow hp
          | some t =>
              have hinside := hinc p t less hp rfl
              cases ht : renderWithin partials context less t with
              | ok s =>
                  rw [ht] at hinside
                  rw [renderNodes_of_ok (s := s) (by simp only [Node.render, included, hp, ht])]
                  exact .include shallow hp hinside h
              | error e =>
                  rw [ht] at hinside
                  rw [renderNodes_of_error (e := e) (by simp only [Node.render, included, hp, ht])]
                  exact .includeFails shallow hp hinside
  | .cond path a b, nodes, h => by
      have hbranch : Gives partials context depth name (if holds context path then a else b)
          (renderNodes name (included partials context name levels) context (if holds context path then a else b)) := by
        split
        · exact gives_nodes hdepth hinc a
        · exact gives_nodes hdepth hinc b
      rw [← render_cond] at hbranch
      cases hr : (Node.cond path a b).render name (included partials context name levels) context with
      | ok s =>
          rw [hr] at hbranch
          rw [renderNodes_of_ok hr]
          exact .cond hbranch h
      | error e =>
          rw [hr] at hbranch
          rw [renderNodes_of_error hr]
          exact .condFails hbranch

theorem gives_nodes (hdepth : depth + levels = maxDepth)
    (hinc : ∀ p t less, partials.value? p = some t → levels = less + 1 →
      Gives partials context (depth + 1) t.name t.nodes (renderWithin partials context less t)) :
    (nodes : List Node) →
      Gives partials context depth name nodes (renderNodes name (included partials context name levels) context nodes)
  | [] => .nil
  | node :: nodes => node.gives hdepth hinc nodes (gives_nodes hdepth hinc nodes)
end

end

theorem gives_renderWithin {depth levels : Nat} (hdepth : depth + levels = maxDepth) (t : Template) :
    Gives partials context depth t.name t.nodes (renderWithin partials context levels t) := by
  induction levels generalizing depth t with
  | zero =>
      rw [renderWithin_eq]
      exact gives_nodes hdepth (fun _ _ _ _ h => nomatch h) t.nodes
  | succ levels ih =>
      rw [renderWithin_eq]
      refine gives_nodes hdepth (fun p t' less _ hless => ?_) t.nodes
      cases hless
      exact ih (by omega) t'

theorem gives_iff {t : Template} {out : Except Failure String} :
    Gives partials context 0 t.name t.nodes out ↔ out = render t partials context := by
  constructor
  · intro h
    rw [render, renderWithin_eq]
    exact (h.eq_renderNodes (Nat.zero_add _)).symm
  · rintro rfl
    exact gives_renderWithin (Nat.zero_add _) t

/-! ## How deep execution comes -/

/-- Executing the nodes, inside so many inclusions, comes to an inclusion of `p` in the template `place` that
stands inside `deep` of them. A branch that is not taken is not executed, nor is what follows a failure. -/
inductive Reaches (partials : Dict Template) (context : Json) (place p : String) (deep : Nat) :
    Nat → String → List Node → Prop where
  | here {nodes} : Reaches partials context place p deep deep place (.include p :: nodes)
  | inside {depth name q t nodes} (found : partials.value? q = some t)
      (h : Reaches partials context place p deep (depth + 1) t.name t.nodes) :
      Reaches partials context place p deep depth name (.include q :: nodes)
  | branch {depth name path a b nodes}
      (h : Reaches partials context place p deep depth name (if holds context path then a else b)) :
      Reaches partials context place p deep depth name (.cond path a b :: nodes)
  | next {depth name node s nodes} (first : Gives partials context depth name [node] (.ok s))
      (h : Reaches partials context place p deep depth name nodes) :
      Reaches partials context place p deep depth name (node :: nodes)

theorem Reaches.le {place p name : String} {deep depth : Nat} {nodes : List Node}
    (h : Reaches partials context place p deep depth name nodes) : depth ≤ deep := by
  induction h with
  | here => exact Nat.le_refl _
  | inside _ _ ih => exact Nat.le_of_succ_le ih
  | branch _ ih => exact ih
  | next _ _ ih => exact ih

theorem Gives.cons_error {depth : Nat} {name s : String} {node : Node} {nodes : List Node} {e : Failure}
    (first : Gives partials context depth name [node] (.ok s)) (rest : Gives partials context depth name nodes (.error e)) :
    Gives partials context depth name (node :: nodes) (.error e) := by
  generalize hout : Except.ok s = out at first
  cases first with
  | text => exact .text rest
  | value found => exact .value found rest
  | «include» shallow found inside => exact .include shallow found inside rest
  | cond branch => exact .cond branch rest
  | noValue | includeFails | unknown | tooDeep | condFails => cases hout

theorem Reaches.gives {place p name : String} {depth : Nat} {nodes : List Node}
    (h : Reaches partials context place p 8 depth name nodes) :
    Gives partials context depth name nodes (.error ⟨place, .tooDeep p⟩) := by
  induction h with
  | here => exact .tooDeep (Nat.le_refl _)
  | inside found h ih => exact .includeFails h.le found ih
  | branch _ ih => exact .condFails ih
  | next first _ ih => exact first.cons_error ih

theorem Gives.reaches {place p name : String} {depth : Nat} {nodes : List Node} {out : Except Failure String}
    (h : Gives partials context depth name nodes out) (hdepth : depth ≤ 8) (hout : out = .error ⟨place, .tooDeep p⟩) :
    Reaches partials context place p 8 depth name nodes := by
  induction h with
  | nil => cases hout
  | text _ ih => exact .next (.text .nil) (ih hdepth (map_eq_error.mp hout))
  | value found _ ih => exact .next (.value found .nil) (ih hdepth (map_eq_error.mp hout))
  | noValue => cases hout
  | «include» shallow found inside _ _ ih =>
      exact .next (.include shallow found inside .nil) (ih hdepth (map_eq_error.mp hout))
  | includeFails shallow found _ ihi => exact .inside found (ihi shallow hout)
  | unknown => cases hout
  | tooDeep deep =>
      cases hout
      obtain rfl := Nat.le_antisymm hdepth deep
      exact .here
  | cond branch _ _ ih => exact .next (.cond branch .nil) (ih hdepth (map_eq_error.mp hout))
  | condFails _ ihb => exact .branch (ihb hdepth hout)

/-! ## Inlining -/

mutual
def Node.inline (standIn : String → Option (List Node)) : Node → List Node
  | .text s => [.text s]
  | .value path => [.value path]
  | .include p => (standIn p).getD [.include p]
  | .cond path onTrue onFalse => [.cond path (inlineNodes standIn onTrue) (inlineNodes standIn onFalse)]

def inlineNodes (standIn : String → Option (List Node)) : List Node → List Node
  | [] => []
  | node :: nodes => node.inline standIn ++ inlineNodes standIn nodes
end

def standIn (partials : Dict Template) : Nat → String → Option (List Node)
  | 0, _ => none
  | levels + 1, p => (partials.value? p).map fun t => inlineNodes (standIn partials levels) t.nodes

/-- The template with its partials in the place of their inclusions, up to eight levels of them. An inclusion of
an unknown partial, or on the ninth level, is left as it is. -/
def inlined (partials : Dict Template) (t : Template) : Template :=
  { t with nodes := inlineNodes (standIn partials 8) t.nodes }

section

variable {name name' : String} {inc inc' : String → Except Failure String} {stand : String → Option (List Node)}

mutual
theorem Node.render_inline (hinc' : ∀ p out, inc' p ≠ .ok out)
    (hinc : ∀ p out, inc p = .ok out ↔ ∃ ns, stand p = some ns ∧ renderNodes name' inc' context ns = .ok out) :
    (node : Node) → ∀ out,
      node.render name inc context = .ok out ↔ renderNodes name' inc' context (node.inline stand) = .ok out
  | .text s, out => by
      rw [Node.inline, renderNodes_singleton_eq_ok]
      rfl
  | .value path, out => by
      rw [Node.inline, renderNodes_singleton_eq_ok, Node.render, Node.render]
      cases lookup context path <;> simp
  | .include p, out => by
      rw [Node.render, hinc, Node.inline]
      cases stand p with
      | none => simp [renderNodes_singleton_eq_ok, Node.render, hinc']
      | some ns => simp
  | .cond path a b, out => by
      rw [Node.inline, renderNodes_singleton_eq_ok, render_cond, render_cond]
      split
      · exact render_nodes_inline hinc' hinc a out
      · exact render_nodes_inline hinc' hinc b out

theorem render_nodes_inline (hinc' : ∀ p out, inc' p ≠ .ok out)
    (hinc : ∀ p out, inc p = .ok out ↔ ∃ ns, stand p = some ns ∧ renderNodes name' inc' context ns = .ok out) :
    (nodes : List Node) → ∀ out,
      renderNodes name inc context nodes = .ok out ↔ renderNodes name' inc' context (inlineNodes stand nodes) = .ok out
  | [], _ => Iff.rfl
  | node :: nodes, out => by
      simp only [inlineNodes, renderNodes_cons_eq_ok, renderNodes_append_eq_ok, node.render_inline hinc' hinc,
        render_nodes_inline hinc' hinc nodes]
end

end

theorem included_nil_ne_ok {name : String} {levels : Nat} (p out : String) :
    included [] context name levels p ≠ .ok out := by
  cases levels <;> exact nofun

theorem included_eq_ok {name name' : String} {levels : Nat} (p out : String) :
    included partials context name levels p = .ok out ↔
      ∃ ns, standIn partials levels p = some ns ∧ renderNodes name' (included [] context name' 8) context ns = .ok out := by
  -- the name is that of the template around the inclusion on the left, and of the outermost one on the right
  induction levels generalizing name p out with
  | zero => simp [included, standIn]
  | succ levels ih =>
      rw [included, standIn]
      cases hp : partials.value? p with
      | none => simp
      | some t =>
          simp only [Option.map_some, Option.some.injEq, exists_eq_left']
          rw [renderWithin_eq]
          exact render_nodes_inline included_nil_ne_ok (fun p out => ih p out) t.nodes out

theorem render_inlined_eq_ok {t : Template} {out : String} :
    render t partials context = .ok out ↔ render (t.inlined partials) [] context = .ok out := by
  rw [render, render, renderWithin_eq, renderWithin_eq]
  exact render_nodes_inline included_nil_ne_ok (fun p out => included_eq_ok p out) t.nodes out

/-- Executing a template always comes to an end, and to one: that of rendering it. It gives a text just if the
template with its partials inlined does, and the same one; and it fails for being nested too deeply just where
execution comes to an inclusion inside of eight others. -/
theorem render_partials (t : Template) (partials : Dict Template) (context : Json) :
    (∀ out, Gives partials context 0 t.name t.nodes out ↔ out = render t partials context) ∧
      (∀ out, render t partials context = .ok out ↔ render (t.inlined partials) [] context = .ok out) ∧
      ∀ place p, render t partials context = .error ⟨place, .tooDeep p⟩ ↔
        Reaches partials context place p 8 0 t.name t.nodes := by
  refine ⟨fun out => gives_iff, fun out => render_inlined_eq_ok, fun place p => ⟨fun h => ?_, fun h => ?_⟩⟩
  · exact (gives_iff.mpr rfl).reaches (Nat.zero_le _) h
  · exact (gives_iff.mp h.gives).symm

end ApiManifest.Template
