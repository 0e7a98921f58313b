import ApiManifest.Manifest.Basic
import ApiManifest.Text.Blank

/-!
What a sound declaration of a data source has: one technology, and the key that this one needs.
-/

namespace ApiManifest

inductive DataSourceError where
  | invalidVariant (found : Nat)
  | missingHashKey
  | missingPrimaryKey
  deriving DecidableEq, Repr

def DataSourceError.message : DataSourceError → String
  | .invalidVariant found =>
    "data source must declare exactly one of dynamo, sql or lambda (found " ++ toString found ++ ")"
  | .missingHashKey => "dynamo datasource must declare a hash_key"
  | .missingPrimaryKey => "sql datasource must declare a primary_key"

def DataSource.fault? (s : DataSource) : Option DataSourceError :=
  match s.variant? with
  | none => some (.invalidVariant s.variantCount)
  | some (.dynamo d) => if d.hashAttribute?.isNone then some .missingHashKey else none
  | some (.sql q) => if (Text.trim q.primaryKey.toList).isEmpty then some .missingPrimaryKey else none
  | some (.lambda _) => none

def Manifest.sourceFaults (m : Manifest) : List (String × DataSourceError) :=
  m.sources.filterMap fun (name, s) => s.fault?.map fun e => (name, e)

end ApiManifest
