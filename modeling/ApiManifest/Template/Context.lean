import ApiManifest.Instant
import ApiManifest.Json.Printer
import ApiManifest.Manifest.Signature

/-!
The values that templates are rendered on.
-/

namespace ApiManifest

namespace KeyAttribute

def toJson (k : KeyAttribute) : Json :=
  .object [("field", k.name), ("type", k.type)]

end KeyAttribute

structure SourceContext where
  name : String
  variant : SourceVariant
  deriving DecidableEq, Repr

namespace SourceContext

def of? (name : String) (source : DataSource) : Option SourceContext :=
  source.variant?.map fun variant => { name, variant }

def identifier (c : SourceContext) : String :=
  DataSource.identifier c.name

def kind (c : SourceContext) : SourceKind :=
  c.variant.kind

def hashKey? (c : SourceContext) : Option KeyAttribute :=
  match c.variant with
  | .dynamo d => d.hashAttribute?
  | _ => none

def sortKey? (c : SourceContext) : Option KeyAttribute :=
  match c.variant with
  | .dynamo d => d.sortAttribute?
  | _ => none

/-- The members that depend on the technology; those of the others are `null` or `false`. -/
def variantMembers (c : SourceContext) : List (String × Json) :=
  let members (disableBackup : Bool) (primaryKey database functionName functionArn : Option String) :
      List (String × Json) :=
    [("hashKey", .ofOption KeyAttribute.toJson c.hashKey?),
      ("sortKey", .ofOption KeyAttribute.toJson c.sortKey?),
      ("disableBackup", disableBackup),
      ("primaryKey", .ofOption .string primaryKey),
      ("database", .ofOption .string database),
      ("functionName", .ofOption .string functionName),
      ("functionArn", .ofOption .string functionArn)]
  match c.variant with
  | .dynamo d => members d.disableBackup none none none none
  | .sql s => members false s.primaryKey s.database none none
  | .lambda l => members false none none l.functionName l.functionArn

def toJson (c : SourceContext) : Json :=
  .object (("name", c.name) :: ("identifier", c.identifier) :: ("type", c.kind.name) :: c.variantMembers)

def document (c : SourceContext) (apiName : String) (generatedAt : Instant) : Json :=
  .object [("apiName", apiName), ("dataSource", c.toJson), ("generatedAt", generatedAt.text)]

end SourceContext

/-- The name of the field that a resolver serves as an identifier: the parent, an underscore and the
field in lower case. -/
def Binding.identifier (b : Binding) : String :=
  Text.lowerText (b.parentType ++ "_" ++ b.fieldName)

structure ResolverContext where
  apiName : String
  resolver : Resolver
  binding : Binding
  source : SourceContext
  generatedAt : Instant

namespace ResolverContext

/-- The attribute of the parent object that a nested resolver reads: its first key field. -/
def parentKey (c : ResolverContext) : String :=
  if c.binding.isNested then (c.resolver.keyFields.head?.map (·.name)).getD "" else ""

def signature (c : ResolverContext) : String :=
  c.resolver.signature?.getD ""

def toJson (c : ResolverContext) : Json :=
  let b := c.binding
  let nameOf (key : Option KeyAttribute) : String := (key.map (·.name)).getD ""
  .object
    [("apiName", c.apiName),
      ("identifier", b.identifier),
      ("signature", c.signature),
      ("parentType", b.parentType),
      ("fieldName", b.fieldName),
      ("action", b.action.name),
      ("template", b.template),
      ("argsSource", b.argsSource.name),
      ("returnType", b.returnType.shorthand),
      ("isNested", b.isNested),
      ("isList", b.returnType.isList),
      ("keyFieldsMap", c.resolver.keyFieldMap.compact),
      ("keyFieldsList", c.resolver.keyFieldList.compact),
      ("sortDescending", c.resolver.sortDescending),
      ("scanIndexForward", !c.resolver.sortDescending),
      ("hashKey", nameOf c.source.hashKey?),
      ("sortKey", nameOf c.source.sortKey?),
      ("parentKey", c.parentKey),
      ("dataSource", c.source.toJson),
      ("generatedAt", c.generatedAt.text)]

end ResolverContext

end ApiManifest
