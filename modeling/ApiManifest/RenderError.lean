import ApiManifest.Files.Tree
import ApiManifest.Schema.Basic
import ApiManifest.Template.Render

/-!
Why an artifact cannot be rendered or written.
-/

namespace ApiManifest

inductive RenderError where
  | templateMissing (name : Path) (searched : List Path)
  | templateSyntax (name : Path) (error : Template.SyntaxError)
  | templateExecution (failure : Template.Failure)
  | read (path : Path)
  | write (path : Path)
  | unbound (name : String)
  | schema (error : SchemaError)
  deriving DecidableEq, Repr

namespace RenderError

def message : RenderError → String
  | templateMissing name _ => "template '" ++ name ++ "' not found in any template root"
  | templateSyntax name e => "template '" ++ name ++ "' is malformed: " ++ e.message
  | templateExecution f => "failed to execute template '" ++ f.template ++ "': " ++ f.error.message
  | read path => "failed to read template '" ++ path ++ "'"
  | write path => "failed to write '" ++ path ++ "'"
  | unbound name => "resolver '" ++ name ++ "' is not bound to a data source"
  | schema e => e.message

def kind : RenderError → String
  | templateMissing _ _ => "TemplateMissing"
  | templateSyntax _ _ => "TemplateSyntax"
  | templateExecution _ => "TemplateExecution"
  | read _ => "Read"
  | write _ => "Write"
  | unbound _ => "Unbound"
  | schema e => e.kind

def stage : RenderError → Stage
  | unbound _ => .unbound
  | templateMissing _ _ => .templateMissing
  | schema _ => .invalidAction
  | _ => .templateSelected

end RenderError

end ApiManifest
