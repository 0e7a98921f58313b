import ApiManifest.Generate.Report
import ApiManifest.Generate.Sink
import ApiManifest.Schema.Sdl
import ApiManifest.Template.Binder

/-!
Generation: one artifact for the schema, one for each bound resolver and one for each data source. What
fails is reported and keeps none of the others back.
-/

namespace ApiManifest

inductive Artifact where
  | schema
  | resolver (r : Resolver)
  | source (name : String) (declaration : DataSource)

/-- What an artifact comes to before it is written: a file name and a text. -/
structure Rendering where
  artifact : String
  outcome : Except RenderError (String × String)
  stage : Option Stage := none

structure Generation where
  schema : Schema
  generatedAt : Instant

def Schema.artifacts (s : Schema) : List Artifact :=
  .schema :: s.boundResolvers.map .resolver ++ s.sources.map fun (name, declaration) => .source name declaration

/-- The report before anything is rendered: the resolvers that are not bound keep their stages. -/
def Schema.initialReport (s : Schema) : Report :=
  { schemaErrors := s.errors
    stages := (s.resolvers.filter fun r => r.2.binding.isNone).map fun (_, r) => (r.display, r.stage) }

namespace Artifact

def templates : Artifact → List Path
  | schema => []
  | resolver r =>
    match r.binding with
    | none => []
    | some b => [wrapperPath, (TemplateKey.ofBinding b).requestPath, (TemplateKey.ofBinding b).responsePath]
  | source _ declaration => (declaration.kind?.map (·.templatePath)).toList

def render (g : Generation) (files : Reader) (b : Binder) : Artifact → Rendering × Binder
  | schema => ({ artifact := schemaFileName, outcome := .ok (schemaFileName, g.schema.sdl) }, b)
  | resolver r =>
    let (rendered, b) := b.bind files g.schema.apiName g.schema.sources g.generatedAt r
    let stage := match rendered with
      | .ok _ => .rendered
      | .error e => e.stage
    ({ artifact := r.display, outcome := rendered.map fun r => (r.outputName, r.text), stage := some stage }, b)
  | source name declaration =>
    let (rendered, b) := b.renderSource files g.schema.apiName g.generatedAt name declaration
    ({ artifact := name, outcome := rendered.map fun r => (r.outputName, r.text) }, b)

end Artifact

def Rendering.store (r : Rendering) (sink : Sink σ) (stored : σ) : ArtifactResult × σ :=
  match r.outcome with
  | .error e => ({ artifact := r.artifact, outcome := .error e, stage := r.stage }, stored)
  | .ok (name, text) =>
    let (outcome, stored) := sink.write name text stored
    ({ artifact := r.artifact, outcome, stage := r.stage }, stored)

namespace Generation

def results (g : Generation) (sink : Sink σ) : List Artifact → Binder → σ → List ArtifactResult × σ
  | [], _, stored => ([], stored)
  | a :: as, b, stored =>
    let (rendering, b) := a.render g (sink.files stored) b
    let (result, stored) := rendering.store sink stored
    let (rest, stored) := g.results sink as b stored
    (result :: rest, stored)

def run (g : Generation) (b : Binder) (sink : Sink σ) (stored : σ) : Report × σ :=
  let (results, stored) := g.results sink g.schema.artifacts b stored
  ((results.foldl Report.record g.schema.initialReport).inOrder, stored)

end Generation

end ApiManifest
