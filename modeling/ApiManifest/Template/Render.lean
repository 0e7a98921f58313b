import ApiManifest.Dict
import ApiManifest.Json.Printer
import ApiManifest.Template.Syntax
import ApiManifest.Text.Split

/-!
Rendering templates. A template is rendered on a JSON value, with partials that it may include; what
is included may include in turn, up to eight levels deep.
-/

namespace ApiManifest

structure Template where
  name : String
  nodes : List Template.Node
  deriving Inhabited

namespace Template

inductive ExecutionError where
  | noValue (path : String)
  | tooDeep (partialName : String)
  | unknownPartial (partialName : String)
  deriving DecidableEq, Repr

def ExecutionError.message : ExecutionError → String
  | .noValue path => "no value at '" ++ path ++ "'"
  | .tooDeep name => "partial '" ++ name ++ "' nested too deeply"
  | .unknownPartial name => "unknown partial '" ++ name ++ "'"

/-- An error, and the name of the template in whose text it arises. -/
structure Failure where
  template : String
  error : ExecutionError
  deriving DecidableEq, Repr

def compile (name source : String) : Except SyntaxError Template :=
  (parse source).map fun nodes => { name, nodes }

def follow (context : Json) : List String → Option Json
  | [] => some context
  | key :: keys => (context.member? key).bind fun value => follow value keys

/-- The value at a path, its names being divided by points. -/
def lookup (context : Json) (path : String) : Option Json :=
  follow context ((Text.splitOn '.' path.toList).map String.ofList)

/-- A condition on a path that leads nowhere is false. -/
def holds (context : Json) (path : String) : Bool :=
  (lookup context path).any Json.isTruthy

/-- Writes nothing for `null`, a string as it is, and anything else as compact JSON. -/
def write : Json → String
  | .null => ""
  | .string s => s
  | value => value.sorted.compact

mutual
/-- Renders a node of the template `name`; `included` renders what it includes. -/
def Node.render (name : String) (included : String → Except Failure String) (context : Json) :
    Node → Except Failure String
  | .text s => .ok s
  | .value path =>
    match lookup context path with
    | some value => .ok (write value)
    | none => .error { template := name, error := .noValue path }
  | .include other => included other
  | .cond path onTrue onFalse =>
    if holds context path then renderNodes name included context onTrue
    else renderNodes name included context onFalse

def renderNodes (name : String) (included : String → Except Failure String) (context : Json) :
    List Node → Except Failure String
  | [] => .ok ""
  | node :: nodes => do
    let first ← node.render name included context
    let rest ← renderNodes name included context nodes
    return first ++ rest
end

def maxDepth : Nat := 8

/-- Renders a template that may include up to so many levels of partials. -/
def renderWithin (partials : Dict Template) (context : Json) : Nat → Template → Except Failure String
  | 0, t =>
    renderNodes t.name (fun p => .error { template := t.name, error := .tooDeep p }) context t.nodes
  | depth + 1, t =>
    let included (p : String) : Except Failure String :=
      match partials.value? p with
      | some other => renderWithin partials context depth other
      | none => .error { template := t.name, error := .unknownPartial p }
    renderNodes t.name included context t.nodes

def render (t : Template) (partials : Dict Template) (context : Json) : Except Failure String :=
  renderWithin partials context maxDepth t

end Template

end ApiManifest
