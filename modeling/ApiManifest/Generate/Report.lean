import ApiManifest.RenderError

/-!
Reports: what was written, what failed, and how far each resolver came.
-/

namespace ApiManifest

/-- What became of one artifact. A resolver's has the stage that the resolver ends in. -/
structure ArtifactResult where
  artifact : String
  outcome : Except RenderError Path
  stage : Option Stage := none

structure Report where
  written : List Path := []
  errors : List (String × RenderError) := []
  schemaErrors : List SchemaError := []
  stages : List (String × Stage) := []

namespace Report

def record (r : Report) (a : ArtifactResult) : Report :=
  let stages := r.stages ++ (a.stage.map fun stage => (a.artifact, stage)).toList
  match a.outcome with
  | .ok path => { r with stages, written := r.written ++ [path] }
  | .error e => { r with stages, errors := r.errors ++ [(a.artifact, e)] }

def errorLe (a b : String × RenderError) : Bool :=
  if a.1 ≠ b.1 then a.1 < b.1
  else if a.2.kind ≠ b.2.kind then a.2.kind < b.2.kind
  else a.2.message ≤ b.2.message

/-- Brings paths in order step by step, and stages by resolver. Artifacts fail in whatever order they end, so
errors are recorded in no order of their own; they are sorted too, that the report may not tell one run from another. -/
def inOrder (r : Report) : Report :=
  { r with
    written := r.written.mergeSort Path.le
    errors := r.errors.mergeSort errorLe
    stages := r.stages.mergeSort fun a b => decide (a.1 ≤ b.1) }

def stageOf? (r : Report) (resolver : String) : Option Stage :=
  (r.stages.find? fun s => s.1 == resolver).map (·.2)

def errorCount (r : Report) : Nat :=
  r.errors.length + r.schemaErrors.length

def isSuccess (r : Report) : Bool :=
  r.errorCount == 0

end Report

end ApiManifest
