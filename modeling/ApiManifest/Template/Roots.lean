import ApiManifest.RenderError

/-!
Template directories: where a template is looked for, and how it is loaded.
-/

namespace ApiManifest

/-- The directories that hold templates. The custom one goes before the standard one. -/
structure TemplateRoots where
  standard : Path
  custom : Option Path := none
  deriving DecidableEq, Repr

namespace TemplateRoots

def candidates (roots : TemplateRoots) (name : Path) : List Path :=
  (roots.custom.toList ++ [roots.standard]).map fun root => root.join name

/-- The path and the text of the first file that is there. One that is there but holds no text ends
the search. -/
def readFirst (files : Reader) : List Path → Except RenderError (Option (Path × String))
  | [] => .ok none
  | path :: paths =>
    match files path with
    | .ok bytes =>
      match Text.Utf8.decode? bytes with
      | some cs => .ok (some (path, String.ofList cs))
      | none => .error (.read path)
    | .error .missing => readFirst files paths
    | .error .unusable => .error (.read path)

def read (files : Reader) (roots : TemplateRoots) (name : Path) : Except RenderError (Path × String) := do
  match ← readFirst files (roots.candidates name) with
  | some found => return found
  | none => throw (.templateMissing name (roots.candidates name))

def load (files : Reader) (roots : TemplateRoots) (name : Path) : Except RenderError Template := do
  let (path, source) ← roots.read files name
  match Template.compile path source with
  | .ok t => return t
  | .error e => throw (.templateSyntax path e)

end TemplateRoots

end ApiManifest
