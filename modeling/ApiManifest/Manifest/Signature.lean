import ApiManifest.Json.Printer
import ApiManifest.Manifest.Basic

/-!
How resolvers and operations are written: their lines in the schema, and their key fields as JSON.
-/

namespace ApiManifest

namespace ResolverOf

/-- The key fields as a JSON object from names to type names; a name met again keeps its place and
takes the later type. -/
def keyFieldMap (r : Resolver) : Json :=
  .object ((Dict.ofList (r.keyFields.map fun f => (f.name, f.typeName))).map fun (name, type) => (name, .string type))

def keyFieldList (r : Resolver) : Json :=
  .array (r.keyFields.map fun f => .string f.name)

def argumentList (r : Resolver) : String :=
  match r.binding with
  | none => ""
  | some b =>
    match b.action with
    | .list => "(filter: " ++ b.returnType.name ++ "Filter, limit: Int, nextToken: String)"
    | .insert => "(input: Create" ++ b.returnType.name ++ "Input)"
    | .update => "(input: Update" ++ b.returnType.name ++ "Input)"
    | _ =>
      if r.keyFields.isEmpty then ""
      else
        let argument (f : Field) : String := f.name ++ ": " ++ (f.type.getD default).shorthand
        "(" ++ ", ".intercalate (r.keyFields.map argument) ++ ")"

/-- The line of the field that a bound resolver serves. A nested resolver makes a plain field; a
top-level list returns a connection. -/
def signature? (r : Resolver) : Option String :=
  r.binding.map fun b =>
    if b.isNested then b.fieldName ++ ": " ++ b.returnType.shorthand
    else
      let returns := match b.action with
        | .list => b.returnType.name ++ "Connection!"
        | _ => b.returnType.shorthand
      b.fieldName ++ r.argumentList ++ ": " ++ returns

def display (r : Resolver) : String :=
  match r.binding with
  | some b => "[" ++ b.parentType ++ "] " ++ b.fieldName ++ " (" ++ b.template ++ ")"
  | none => "[unbound] " ++ r.source ++ " (" ++ r.action ++ ")"

end ResolverOf

/-- The line of an operation: that of its resolver once it is bound, else its name and type. -/
def Operation.signature (o : Operation) : String :=
  (o.resolver.bind (·.signature?)).getD (o.name ++ ": " ++ o.type.shorthand)

end ApiManifest
