import ApiManifest.Manifest.Decode
import ApiManifest.Manifest.Validation
import ApiManifest.Manifest.Version
import ApiManifest.Yaml.Document

/-!
Loading a manifest: its version is looked at first, then it is decoded, then its name and its data
sources are checked.
-/

namespace ApiManifest

inductive ManifestError where
  | missingVersion
  | unsupportedVersion (found : String)
  | decode (e : DecodeError)
  | missingApiName
  | validation (faults : List (String × DataSourceError))
  | read (path : String)
  deriving DecidableEq, Repr

namespace ManifestError

def message? : ManifestError → Option String
  | .missingVersion =>
    some ("no valid 'version' found in manifest - must be in format 'v" ++ toString Version.supportedMajor ++ ".0.0'")
  | .unsupportedVersion found =>
    some ("manifest must be version >= " ++ toString Version.supportedMajor ++ ".0.0 and < "
      ++ toString (Version.supportedMajor + 1) ++ ".0.0, got " ++ found)
  | .missingApiName => some "must supply apiNameSuffix"
  | .validation faults =>
    some ("errors found whilst validating data sources: "
      ++ "; ".intercalate (faults.map fun (name, e) => name ++ ": " ++ e.message))
  | .decode _ => none
  | .read _ => none

end ManifestError

def decodeStream (decode : Yaml.Node → Except DecodeError α) (stream : Yaml.Stream) : Except DecodeError α := do
  let a ← decode stream.document
  if stream.continues then throw .malformed else return a

/-- A type from a stream. That there is one document is seen before what value it holds. -/
def FieldType.ofStream (stream : Yaml.Stream) : Except DecodeError FieldType := do
  (FieldType.ofValue (← decodeStream Yaml.Node.readValue stream)).mapError .ofAttributeError

/-- A field from a stream. That there is one document is seen before the field is checked as a whole. -/
def Field.ofStream (stream : Yaml.Stream) : Except DecodeError Field := do
  (← decodeStream (Field.read .text) stream).checked

def checkVersion (bytes : List UInt8) : Except ManifestError Unit :=
  match Version.find? bytes with
  | none => .error .missingVersion
  | some v =>
    if Version.major? v = some Version.supportedMajor then .ok ()
    else .error (.unsupportedVersion (String.ofList v))

namespace Manifest

def checked (m : Manifest) : Except ManifestError Manifest :=
  if (Text.trim m.apiNameSuffix.toList).isEmpty then .error .missingApiName
  else if m.sourceFaults.isEmpty then .ok m
  else .error (.validation m.sourceFaults)

def parse (bytes : List UInt8) : Except ManifestError Manifest := do
  checkVersion bytes
  let m ← (decodeStream (decode .text) (Yaml.Stream.ofBytes bytes)).mapError .decode
  m.checked

end Manifest

end ApiManifest
