import ApiManifest.Dict
import ApiManifest.Settings

/-!
Command lines: every setting may be given as an option, long or short; what is not given comes from its
variable, then from its default.
-/

namespace ApiManifest

def Setting.long : Setting → String
  | manifest => "manifest"
  | outputPath => "outpath"
  | templateRoot => "templates"
  | customRoot => "custom-templates"
  | extension => "extension"
  | concurrency => "concurrency"

def Setting.short : Setting → Char
  | manifest => 'm'
  | outputPath => 'o'
  | templateRoot => 't'
  | customRoot => 'c'
  | extension => 'e'
  | concurrency => 'j'

def Setting.all : List Setting :=
  [manifest, outputPath, templateRoot, customRoot, extension, concurrency]

namespace CommandLine

inductive UsageError where
  | unexpected (argument : String)
  | missingValue (setting : Setting)
  | superfluousValue (argument : String)
  | repeated (setting : Setting)
  | invalid (setting : Setting) (value : String)
  | missing (setting : Setting)
  deriving DecidableEq, Repr

def UsageError.message : UsageError → String
  | unexpected argument => "unexpected argument '" ++ argument ++ "' found"
  | missingValue s => "a value is required for '--" ++ s.long ++ "' but none was supplied"
  | superfluousValue argument => "unexpected value in '" ++ argument ++ "'"
  | repeated s => "the argument '--" ++ s.long ++ "' cannot be used multiple times"
  | invalid s value => "invalid value '" ++ value ++ "' for '--" ++ s.long ++ "'"
  | missing s => "the argument '--" ++ s.long ++ "' is required"

inductive Ending where
  | help
  | version
  | usage (e : UsageError)
  deriving DecidableEq, Repr

abbrev Given := List (Setting × String)

inductive Switch where
  | setting (s : Setting)
  | help
  | version

namespace Switch

def ofLong? (name : String) : Option Switch :=
  if name = "help" then some help
  else if name = "version" then some version
  else (Setting.all.find? fun s => s.long == name).map setting

def ofShort? (c : Char) : Option Switch :=
  if c = 'h' then some help
  else if c = 'V' then some version
  else (Setting.all.find? fun s => s.short == c).map setting

end Switch

def maxConcurrency : Nat := Nat.pow 2 32 - 1

/-- Can a setting have that value? Paths are not empty. -/
def isSound (s : Setting) (value : String) : Bool :=
  match s with
  | .extension => true
  | .concurrency => (Settings.count? maxConcurrency value).isSome
  | _ => value ≠ ""

def give (s : Setting) (value : String) (given : Given) : Except Ending Given :=
  if given.any fun g => g.1 == s then .error (.usage (.repeated s))
  else if isSound s value then .ok (given ++ [(s, value)])
  else .error (.usage (.invalid s value))

def isOption (argument : String) : Bool :=
  match argument.toList with
  | '-' :: _ :: _ => true
  | _ => false

/-- The text after a short option, an equals sign in front left out. -/
def attachedValue (cs : List Char) : Option String :=
  match cs with
  | [] => none
  | '=' :: cs => some (String.ofList cs)
  | cs => some (String.ofList cs)

/-- Gives a setting its attached value, or leaves it to wait for the next argument. -/
def begin (s : Setting) (attached : Option String) (given : Given) : Except Ending (Given × Option Setting) :=
  match attached with
  | some value => (give s value given).map fun given => (given, none)
  | none => .ok (given, some s)

def readOption (argument : String) (given : Given) : Except Ending (Given × Option Setting) :=
  match argument.toList with
  | '-' :: '-' :: cs =>
    let (name, attached) := match Text.splitOnce '=' cs with
      | some (name, value) => (name, some (String.ofList value))
      | none => (cs, none)
    match Switch.ofLong? (String.ofList name), attached with
    | none, _ => .error (.usage (.unexpected argument))
    | some (.setting s), _ => begin s attached given
    | some _, some _ => .error (.usage (.superfluousValue argument))
    | some .help, none => .error .help
    | some .version, none => .error .version
  | '-' :: c :: cs =>
    match Switch.ofShort? c with
    | none => .error (.usage (.unexpected argument))
    | some .help => .error .help
    | some .version => .error .version
    | some (.setting s) => begin s (attachedValue cs) given
  | _ => .error (.usage (.unexpected argument))

/-- Reads the arguments in order; a setting may wait for its value. Nothing may follow two hyphens. -/
def readAll : List String → Option Setting → Given → Except Ending Given
  | [], none, given => .ok given
  | [], some s, _ => .error (.usage (.missingValue s))
  | argument :: rest, some s, given =>
    if isOption argument then .error (.usage (.missingValue s))
    else do readAll rest none (← give s argument given)
  | argument :: rest, none, given =>
    if argument = "--" then
      match rest with
      | [] => .ok given
      | stray :: _ => .error (.usage (.unexpected stray))
    else do
      let (given, waiting) ← readOption argument given
      readAll rest waiting given

/-- The value of a setting: the one given, else that of its variable as it stands. -/
def value? (environment : Dict String) (given : Given) (s : Setting) : Except Ending (Option String) :=
  match given.find? fun g => g.1 == s with
  | some (_, value) => .ok (some value)
  | none =>
    match environment.value? s.variable with
    | none => .ok none
    | some value => if isSound s value then .ok (some value) else .error (.usage (.invalid s value))

def settings (isDirectory : Path → Bool) (arguments : List String) (environment : Dict String) :
    Except Ending Settings := do
  let given ← readAll arguments none []
  let manifest? ← value? environment given .manifest
  let outputPath? ← value? environment given .outputPath
  let templateRoot? ← value? environment given .templateRoot
  let customRoot? ← value? environment given .customRoot
  let extension? ← value? environment given .extension
  let concurrency? ← value? environment given .concurrency
  match manifest? with
  | none => throw (.usage (.missing .manifest))
  | some manifest =>
    let defaults : Settings := { manifest }
    return {
      manifest
      outputPath := outputPath?.getD defaults.outputPath
      templateRoot := templateRoot?.getD defaults.templateRoot
      customRoot := customRoot?.or (Settings.customRootOf isDirectory manifest)
      extension := (extension?.map Settings.extensionOf).getD defaults.extension
      concurrency := (concurrency?.bind (Settings.count? maxConcurrency)).getD defaults.concurrency }

end CommandLine

end ApiManifest
