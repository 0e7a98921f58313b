import ApiManifest.Files.Path
import ApiManifest.Text.Blank

/-!
Settings: what a run is told, by variables or by defaults.
-/

namespace ApiManifest

inductive Setting where
  | manifest
  | outputPath
  | templateRoot
  | customRoot
  | extension
  | concurrency
  deriving DecidableEq, Repr

def Setting.variable : Setting → String
  | manifest => "APPSYNC_MANIFEST"
  | outputPath => "APPSYNC_OUTPUT_PATH"
  | templateRoot => "APPSYNC_TEMPLATE_ROOT"
  | customRoot => "APPSYNC_CUSTOM_TEMPLATE_ROOT"
  | extension => "APPSYNC_OUTPUT_EXTENSION"
  | concurrency => "APPSYNC_RENDER_CONCURRENCY"

inductive SettingsError where
  | missing (setting : Setting)
  | invalid (setting : Setting) (value : String)
  deriving DecidableEq, Repr

def SettingsError.message : SettingsError → String
  | .missing s => s.variable ++ " must be set"
  | .invalid s value => "invalid value for " ++ s.variable ++ ": '" ++ value ++ "'"

structure Settings where
  manifest : Path
  outputPath : Path := "generated"
  templateRoot : Path := "templates"
  /-- Searched before the standard templates. -/
  customRoot : Option Path := none
  extension : String := "tf"
  concurrency : Nat := 8
  deriving DecidableEq, Repr

namespace Settings

def besideManifest (manifest : Path) : Path :=
  (manifest.parent?.getD "").join "mapping-templates"

def customRootOf (isDirectory : Path → Bool) (manifest : Path) : Option Path :=
  if isDirectory (besideManifest manifest) then some (besideManifest manifest) else none

def extensionOf (s : String) : String :=
  String.ofList (s.toList.dropWhile (· = '.'))

/-- Reads a number from 1 to a bound in decimal digits; a plus sign may stand before them. -/
def count? (bound : Nat) (s : String) : Option Nat :=
  let digits := match s.toList with
    | '+' :: cs => cs
    | cs => cs
  let value := digits.foldl (fun n c => n * 10 + (c.toNat - 48)) 0
  if digits.isEmpty || digits.any (fun c => c < '0' || '9' < c) || value < 1 || bound < value then none
  else some value

/-- The value of a setting among the variables. Blanks at its ends do not count, nor does an empty one. -/
def given (lookup : String → Option String) (s : Setting) : Option String :=
  ((lookup s.variable).map Text.trimmed).filter (· ≠ "")

def ofLookup (isDirectory : Path → Bool) (lookup : String → Option String) : Except SettingsError Settings := do
  match given lookup .manifest with
  | none => throw (.missing .manifest)
  | some manifest =>
    let defaults : Settings := { manifest }
    let concurrency ← match given lookup .concurrency with
      | none => pure defaults.concurrency
      | some value =>
        match count? (Nat.pow 2 64 - 1) value with
        | some n => pure n
        | none => throw (.invalid .concurrency value)
    return {
      manifest
      outputPath := (given lookup .outputPath).getD defaults.outputPath
      templateRoot := (given lookup .templateRoot).getD defaults.templateRoot
      customRoot := (given lookup .customRoot).or (customRootOf isDirectory manifest)
      extension := ((given lookup .extension).map extensionOf).getD defaults.extension
      concurrency }

end Settings

end ApiManifest
