import ApiManifest.Schema.Binding
import ApiManifest.Template.Context
import ApiManifest.Template.Roots

/-!
Rendering resolvers and data sources with the templates that go with them. What has been loaded once is
kept: later changes of its files do not count.
-/

namespace ApiManifest

structure TemplateKey where
  kind : SourceKind
  template : String
  isNested : Bool
  deriving DecidableEq, Repr

namespace TemplateKey

def ofBinding (b : Binding) : TemplateKey :=
  { kind := b.sourceKind, template := b.template, isNested := b.isNested }

def fileName (k : TemplateKey) : String :=
  k.template ++ (if k.isNested then "-nested" else "") ++ ".tmpl"

def requestPath (k : TemplateKey) : Path :=
  (Path.join k.kind.name "request").join k.fileName

def responsePath (k : TemplateKey) : Path :=
  (Path.join k.kind.name "response").join k.fileName

end TemplateKey

/-- The template around the request and the response of every resolver. -/
def wrapperPath : Path := "resolver.tmpl"

def SourceKind.templatePath (k : SourceKind) : Path :=
  Path.join k.name "datasource.tmpl"

structure TemplateSet where
  wrapper : Template
  request : Template
  response : Template

structure RenderedResolver where
  identifier : String
  signature : String
  request : String
  response : String
  /-- The wrapper, with the request and the response where it includes them. -/
  text : String
  outputName : String
  deriving DecidableEq, Repr

structure RenderedSource where
  identifier : String
  text : String
  outputName : String
  deriving DecidableEq, Repr

namespace TemplateSet

def load (files : Reader) (roots : TemplateRoots) (key : TemplateKey) : Except RenderError TemplateSet := do
  let wrapper ← roots.load files wrapperPath
  let request ← roots.load files key.requestPath
  let response ← roots.load files key.responsePath
  return { wrapper, request, response }

def partials (s : TemplateSet) : Dict Template :=
  [("request", s.request), ("response", s.response)]

def render (s : TemplateSet) (extension : String) (c : ResolverContext) : Except RenderError RenderedResolver :=
  let rendered : Except Template.Failure RenderedResolver := do
    let request ← s.request.render s.partials c.toJson
    let response ← s.response.render s.partials c.toJson
    let text ← s.wrapper.render s.partials c.toJson
    let identifier := c.binding.identifier
    return { identifier, signature := c.signature, request, response, text,
             outputName := "_" ++ identifier ++ "." ++ extension }
  rendered.mapError .templateExecution

end TemplateSet

def Template.renderSource (t : Template) (extension apiName : String) (generatedAt : Instant)
    (c : SourceContext) : Except RenderError RenderedSource :=
  match t.render [] (c.document apiName generatedAt) with
  | .ok text =>
    .ok { identifier := c.identifier, text, outputName := "_datasource_" ++ c.identifier ++ "." ++ extension }
  | .error e => .error (.templateExecution e)

/-- Template directories with what has been loaded from them so far, and the extension of the files
that are rendered. -/
structure Binder where
  roots : TemplateRoots
  extension : String
  sets : List (TemplateKey × TemplateSet) := []
  sources : List (SourceKind × Template) := []

namespace Binder

def cached (b : Binder) : Nat :=
  b.sets.length

def cachedSet? (b : Binder) (key : TemplateKey) : Option TemplateSet :=
  (b.sets.find? fun e => e.1 == key).map (·.2)

def cachedSource? (b : Binder) (kind : SourceKind) : Option Template :=
  (b.sources.find? fun e => e.1 == kind).map (·.2)

/-- The templates of a resolver. They are kept once all of them are loaded. -/
def templateSet (files : Reader) (key : TemplateKey) (b : Binder) : Except RenderError TemplateSet × Binder :=
  match b.cachedSet? key with
  | some set => (.ok set, b)
  | none =>
    match TemplateSet.load files b.roots key with
    | .ok set => (.ok set, { b with sets := b.sets ++ [(key, set)] })
    | .error e => (.error e, b)

def sourceTemplate (files : Reader) (kind : SourceKind) (b : Binder) : Except RenderError Template × Binder :=
  match b.cachedSource? kind with
  | some t => (.ok t, b)
  | none =>
    match b.roots.load files kind.templatePath with
    | .ok t => (.ok t, { b with sources := b.sources ++ [(kind, t)] })
    | .error e => (.error e, b)

def prepare (sources : Dict DataSource) (r : Resolver) : Except RenderError (Binding × SourceContext) := do
  match r.binding with
  | none => throw (.unbound r.display)
  | some b =>
    match checkCardinality b.action b.parentType b.fieldName b.returnType with
    | .error e => throw (.schema e)
    | .ok () =>
      match (sources.value? b.dataSource).bind (SourceContext.of? b.dataSource) with
      | none => throw (.unbound r.display)
      | some c => return (b, c)

def bind (files : Reader) (apiName : String) (sources : Dict DataSource) (generatedAt : Instant)
    (resolver : Resolver) (b : Binder) : Except RenderError RenderedResolver × Binder :=
  match prepare sources resolver with
  | .error e => (.error e, b)
  | .ok (binding, source) =>
    let (set, b) := b.templateSet files (.ofBinding binding)
    (set.bind fun set => set.render b.extension { apiName, resolver, binding, source, generatedAt }, b)

def renderSource (files : Reader) (apiName : String) (generatedAt : Instant) (name : String)
    (source : DataSource) (b : Binder) : Except RenderError RenderedSource × Binder :=
  match SourceContext.of? name source with
  | none => (.error (.unbound name), b)
  | some c =>
    let (t, b) := b.sourceTemplate files c.kind
    (t.bind fun t => t.renderSource b.extension apiName generatedAt c, b)

end Binder

end ApiManifest
