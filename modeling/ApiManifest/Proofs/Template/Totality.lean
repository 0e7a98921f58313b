import ApiManifest.Proofs.Dict
import ApiManifest.Proofs.Template.Inlining

/-!
# Templates that find all they name

A template that names nothing beyond a scope is rendered on every value, and with all partials, that give what
the scope promises.
-/

namespace ApiManifest.Template

/-- What a template may count on: values at some paths, at more of them where a condition holds, and partials. -/
structure Scope where
  paths : List String
  guarded : Dict (List String) := []
  partials : List String := []

def Scope.given (s : Scope) (path : String) : Scope :=
  { s with paths := (s.guarded.value? path).getD [] ++ s.paths }

mutual
/-- Is all that the node names in scope? A condition may name any path. -/
def Node.isWithin (s : Scope) : Node → Bool
  | .text _ => true
  | .value path => s.paths.contains path
  | .include name => s.partials.contains name
  | .cond path onTrue onFalse => areWithin (s.given path) onTrue && areWithin s onFalse

def areWithin (s : Scope) : List Node → Bool
  | [] => true
  | node :: nodes => node.isWithin s && areWithin s nodes
end

structure Scope.MetBy (s : Scope) (context : Json) : Prop where
  paths : ∀ path ∈ s.paths, ∃ value, lookup context path = some value
  guarded : ∀ e ∈ s.guarded, holds context e.1 = true → ∀ path ∈ e.2, ∃ value, lookup context path = some value

section

variable {s : Scope} {context : Json} {name : String} {inc : String → Except Failure String}

theorem Scope.MetBy.given (h : s.MetBy context) {path : String} (hpath : holds context path = true) :
    (s.given path).MetBy context where
  paths p hp := by
    rcases List.mem_append.mp hp with hp | hp
    · cases hg : s.guarded.value? path with
      | none => simp [hg] at hp
      | some gained =>
          rw [hg] at hp
          exact h.guarded _ (Dict.mem_of_value? hg) hpath p hp
    · exact h.paths p hp
  guarded := h.guarded

mutual
theorem Node.exists_render {s : Scope} (h : s.MetBy context) (hinc : ∀ p ∈ s.partials, ∃ out, inc p = .ok out) :
    (node : Node) → node.isWithin s = true → ∃ out, node.render name inc context = .ok out
  | .text text, _ => ⟨text, rfl⟩
  | .value path, hnode => by
      obtain ⟨value, hvalue⟩ := h.paths path (by simpa [Node.isWithin] using hnode)
      exact ⟨write value, by simp only [Node.render, hvalue]⟩
  | .include p, hnode => hinc p (by simpa [Node.isWithin] using hnode)
  | .cond path onTrue onFalse, hnode => by
      simp only [Node.isWithin, Bool.and_eq_true] at hnode
      rw [render_cond]
      split
      · rename_i hpath
        exact exists_renderNodes (h.given hpath) hinc onTrue hnode.1
      · exact exists_renderNodes h hinc onFalse hnode.2

theorem exists_renderNodes {s : Scope} (h : s.MetBy context) (hinc : ∀ p ∈ s.partials, ∃ out, inc p = .ok out) :
    (nodes : List Node) → areWithin s nodes = true → ∃ out, renderNodes name inc context nodes = .ok out
  | [], _ => ⟨"", rfl⟩
  | node :: nodes, hnodes => by
      simp only [areWithin, Bool.and_eq_true] at hnodes
      obtain ⟨first, hfirst⟩ := node.exists_render h hinc hnodes.1
      obtain ⟨rest, hrest⟩ := exists_renderNodes h hinc nodes hnodes.2
      exact ⟨first ++ rest, renderNodes_cons_eq_ok.mpr ⟨first, hfirst, rest, hrest, rfl⟩⟩
end

variable {t : Template} {partials : Dict Template}

/-- Nothing is included, so that it does not matter how deep a template stands. -/
theorem exists_renderWithin (h : s.MetBy context) (hs : s.partials = []) (ht : areWithin s t.nodes = true) (depth : Nat) :
    ∃ out, renderWithin partials context depth t = .ok out := by
  cases depth <;> exact exists_renderNodes h (by simp [hs]) t.nodes ht

theorem exists_render (h : s.MetBy context) (ht : areWithin s t.nodes = true)
    (hpartials : ∀ p ∈ s.partials, ∃ other, partials.value? p = some other ∧
      areWithin { s with partials := [] } other.nodes = true) :
    ∃ out, t.render partials context = .ok out := by
  have hrest : Scope.MetBy { s with partials := [] } context := ⟨h.paths, h.guarded⟩
  refine exists_renderNodes h (fun p hp => ?_) t.nodes ht
  obtain ⟨other, hother, hwithin⟩ := hpartials p hp
  simp only [hother]
  exact exists_renderWithin hrest rfl hwithin _

end

end ApiManifest.Template
