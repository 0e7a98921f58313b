import ApiManifest.Dict
import ApiManifest.Manifest.Resolver
import ApiManifest.Text.LowerCase

/-!
Manifests: the enumerations, objects, operations and data sources of an API.
-/

namespace ApiManifest

structure Operation where
  name : String
  type : FieldType := default
  resolver : Option Resolver := none

structure DynamoSource where
  hashKey : String := ""
  sortKey : Option String := none
  disableBackup : Bool := false
  deriving DecidableEq, Repr

structure SqlSource where
  primaryKey : String := ""
  database : Option String := none
  deriving DecidableEq, Repr

structure LambdaSource where
  functionName : Option String := none
  functionArn : Option String := none
  deriving DecidableEq, Repr

structure DataSource where
  dynamo : Option DynamoSource := none
  sql : Option SqlSource := none
  lambda : Option LambdaSource := none
  deriving DecidableEq, Repr

/-- The one technology that a sound declaration names. -/
inductive SourceVariant where
  | dynamo (d : DynamoSource)
  | sql (s : SqlSource)
  | lambda (l : LambdaSource)
  deriving DecidableEq, Repr

def SourceVariant.kind : SourceVariant → SourceKind
  | .dynamo _ => .dynamo
  | .sql _ => .sql
  | .lambda _ => .lambda

structure Manifest where
  version : String
  apiNameSuffix : String := ""
  enums : Dict (List String) := []
  objects : Dict (List Field) := []
  queries : List Operation := []
  mutations : List Operation := []
  sources : Dict DataSource := []

namespace DynamoSource

def hashAttribute? (d : DynamoSource) : Option KeyAttribute :=
  KeyAttribute.parse? d.hashKey

def sortAttribute? (d : DynamoSource) : Option KeyAttribute :=
  d.sortKey.bind KeyAttribute.parse?

end DynamoSource

namespace DataSource

def variantCount (s : DataSource) : Nat :=
  s.dynamo.isSome.toNat + s.sql.isSome.toNat + s.lambda.isSome.toNat

def variant? (s : DataSource) : Option SourceVariant :=
  match s.dynamo, s.sql, s.lambda with
  | some d, none, none => some (.dynamo d)
  | none, some q, none => some (.sql q)
  | none, none, some l => some (.lambda l)
  | _, _, _ => none

def kind? (s : DataSource) : Option SourceKind :=
  s.variant?.map (·.kind)

/-- The name of a source as an identifier: in lower case, without underscores and hyphens. -/
def identifier (name : String) : String :=
  String.ofList ((name.toList.filter fun c => c ≠ '_' && c ≠ '-').flatMap Text.lowerChar)

end DataSource

end ApiManifest
