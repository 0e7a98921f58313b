import ApiManifest.Proofs.Template.Cache
import ApiManifest.Proofs.Template.Inlining
import ApiManifest.Proofs.Text.Identifier

/-!
# What a rendering depends on

Rendering looks at a value only at the paths that the template and its partials name. The time at which
something is generated is one member of the value, so that it makes no difference to a template that names no
path into it.
-/

namespace ApiManifest

namespace Template

/-! ## The paths that are looked at -/

mutual
def Node.paths : Node → List String
  | .text _ => []
  | .value path => [path]
  | .include _ => []
  | .cond path onTrue onFalse => path :: (pathsOf onTrue ++ pathsOf onFalse)

def pathsOf : List Node → List String
  | [] => []
  | node :: nodes => node.paths ++ pathsOf nodes
end

def AgreeAt (paths : List String) (context context' : Json) : Prop :=
  ∀ path ∈ paths, lookup context path = lookup context' path

section

variable {context context' : Json} {name : String} {inc inc' : String → Except Failure String}

theorem AgreeAt.append {paths paths' : List String} :
    AgreeAt (paths ++ paths') context context' ↔ AgreeAt paths context context' ∧ AgreeAt paths' context context' := by
  simp only [AgreeAt, List.mem_append, or_imp, forall_and]

mutual
theorem Node.render_congr (hinc : ∀ p, inc p = inc' p) : (node : Node) → AgreeAt node.paths context context' →
    node.render name inc context = node.render name inc' context'
  | .text _, _ => rfl
  | .value path, h => by
      rw [Node.render, Node.render, h path (List.mem_singleton_self path)]
  | .include p, _ => hinc p
  | .cond path onTrue onFalse, h => by
      obtain ⟨hpath, hbranches⟩ := List.forall_mem_cons.mp h
      obtain ⟨htrue, hfalse⟩ := AgreeAt.append.mp hbranches
      rw [Node.render, Node.render, holds, holds, hpath, renderNodes_congr hinc onTrue htrue,
        renderNodes_congr hinc onFalse hfalse]

theorem renderNodes_congr (hinc : ∀ p, inc p = inc' p) : (nodes : List Node) → AgreeAt (pathsOf nodes) context context' →
    renderNodes name inc context nodes = renderNodes name inc' context' nodes
  | [], _ => rfl
  | node :: nodes, h => by
      obtain ⟨hnode, hnodes⟩ := AgreeAt.append.mp h
      rw [renderNodes, renderNodes, Node.render_congr hinc node hnode, renderNodes_congr hinc nodes hnodes]
end

variable {partials : Dict Template}

theorem renderWithin_congr (hpartials : ∀ e ∈ partials, AgreeAt (pathsOf e.2.nodes) context context') {t : Template}
    (ht : AgreeAt (pathsOf t.nodes) context context') (levels : Nat) :
    renderWithin partials context levels t = renderWithin partials context' levels t := by
  induction levels generalizing t with
  | zero => exact renderNodes_congr (fun _ => rfl) t.nodes ht
  | succ levels ih =>
      refine renderNodes_congr (fun p => ?_) t.nodes ht
      cases hp : partials.value? p with
      | none => rfl
      | some other => exact ih (hpartials _ (Dict.mem_of_value? hp))

/-- Values that have the same at every path that a template and its partials name are rendered alike, be it to a
text or to a failure. -/
theorem render_congr {t : Template} (ht : AgreeAt (pathsOf t.nodes) context context')
    (hpartials : ∀ e ∈ partials, AgreeAt (pathsOf e.2.nodes) context context') :
    t.render partials context = t.render partials context' :=
  renderWithin_congr hpartials ht maxDepth

end

/-! ## The time -/

def firstName (path : String) : String :=
  String.ofList ((Text.splitOn '.' path.toList).headD [])

def Untimed (t : Template) : Prop :=
  ∀ path ∈ pathsOf t.nodes, firstName path ≠ "generatedAt"

instance (t : Template) : Decidable t.Untimed :=
  inferInstanceAs (Decidable (∀ path ∈ pathsOf t.nodes, firstName path ≠ "generatedAt"))

def timed (members : List (String × Json)) (i : Instant) : Json :=
  .object (members ++ [("generatedAt", .string i.text)])

theorem member?_timed (members : List (String × Json)) (i i' : Instant) {key : String} (hkey : key ≠ "generatedAt") :
    (timed members i).member? key = (timed members i').member? key := by
  have hlast : ("generatedAt" == key) = false := beq_false_of_ne hkey.symm
  simp only [timed, Json.member?, List.reverse_append, List.reverse_singleton, List.singleton_append,
    List.find?_cons, hlast]

theorem lookup_timed (members : List (String × Json)) (i i' : Instant) {path : String}
    (hpath : firstName path ≠ "generatedAt") :
    lookup (timed members i) path = lookup (timed members i') path := by
  unfold lookup
  unfold firstName at hpath
  cases hnames : Text.splitOn '.' path.toList with
  | nil =>
      rw [Text.splitOn_eq] at hnames
      exact absurd hnames (List.splitOn_ne_nil '.' path.toList)
  | cons first rest =>
      rw [hnames, List.headD_cons] at hpath
      rw [List.map_cons, follow, follow, member?_timed members i i' hpath]

/-- A template that does not name the time is rendered alike at all times, with partials that do not either. -/
theorem Untimed.render_eq {t : Template} (ht : t.Untimed) {partials : Dict Template}
    (hpartials : ∀ e ∈ partials, e.2.Untimed) (members : List (String × Json)) (i i' : Instant) :
    t.render partials (timed members i) = t.render partials (timed members i') :=
  render_congr (fun path hpath => lookup_timed members i i' (ht path hpath))
    fun e he path hpath => lookup_timed members i i' (hpartials e he path hpath)

end Template

end ApiManifest
