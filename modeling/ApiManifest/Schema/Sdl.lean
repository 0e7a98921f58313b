import ApiManifest.Schema.Derive

/-!
The schema as a document in the schema definition language: a list of blocks, and their text.
-/

namespace ApiManifest

def schemaFileName : String := "schema.public.graphql"

/-- A definition: its keyword, its name, and the lines between its braces. -/
structure Block where
  keyword : String
  name : String
  lines : List String
  deriving DecidableEq, Repr

namespace Block

/-- The lines of a block's text, without the last line break. -/
def text (header : String) (lines : List String) : String :=
  header ++ " \x7b\n" ++ String.join (lines.map fun line => "    " ++ line ++ "\n") ++ "\x7d\n"

def render (b : Block) : String :=
  text (b.keyword ++ " " ++ b.name) b.lines ++ "\n"

end Block

/-- The line of a field: that of its resolver once it is bound, else its name and type. -/
def Field.line (f : Field) : String :=
  match f.resolver.bind (·.signature?) with
  | some signature => signature
  | none =>
    let type := (f.type.orElse fun _ => f.resolver.bind (·.type)).getD default
    f.name ++ ": " ++ type.shorthand

namespace Sdl

def filterOperators : List String :=
  ["ne", "eq", "le", "lt", "ge", "gt", "contains", "notContains"]

def filterableScalars : List String :=
  ["Int", "String", "Float", "ID"]

def scalarFilters : List Block :=
  { keyword := "input", name := scalarFilterName "Boolean", lines := ["ne: Boolean", "eq: Boolean"] } ::
    filterableScalars.map fun scalar =>
      { keyword := "input", name := scalarFilterName scalar
        lines := (filterOperators.map fun op => op ++ ": " ++ scalar) ++ ["between: [" ++ scalar ++ "]"] }

def ofEnum (name : String) (values : List String) : Block :=
  { keyword := "enum", name, lines := values }

def ofObject (o : ObjectType) : Block :=
  { keyword := "type", name := o.name, lines := o.fields.map Field.line }

def ofInput (o : ObjectType) : Block :=
  { keyword := "input", name := o.name, lines := o.fields.map Field.line }

def ofConnection (base : String) : Block :=
  { keyword := "type", name := base ++ "Connection", lines := ["items: [" ++ base ++ "]", "nextToken: String"] }

def ofOperations (name : String) (operations : List Operation) : List Block :=
  if operations.isEmpty then []
  else [{ keyword := "type", name, lines := operations.map (·.signature) }]

def blocks (s : Schema) : List Block :=
  (s.enums.map fun (name, values) => ofEnum name values) ++ s.objects.values.map ofObject ++
    s.connections.map ofConnection ++ (s.filters.values ++ s.inputs.values).map ofInput ++
    ofOperations queryType s.queries ++ ofOperations mutationType s.mutations ++ scalarFilters

def roots (s : Schema) : List String :=
  (if s.queries.isEmpty then [] else ["query: Query"]) ++
    if s.mutations.isEmpty then [] else ["mutation: Mutation"]

end Sdl

def Schema.sdl (s : Schema) : String :=
  String.join ((Sdl.blocks s).map Block.render) ++
    if (Sdl.roots s).isEmpty then "" else Block.text "schema" (Sdl.roots s)

end ApiManifest
