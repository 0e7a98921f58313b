import ApiManifest.CommandLine.Run
import Std.Time.DateTime.Timestamp

/-!
The command on the real file system: it reads what a run may need, runs, and writes the artifacts one
after another.
-/

namespace ApiManifest.Command

def readPath (path : Path) : IO (Except FileFault (List UInt8)) := do
  try return .ok (← IO.FS.readBinFile path).toList
  catch
    | .noFileOrDirectory .. => return .error .missing
    | _ => return .error .unusable

/-- A path goes on with a point only where a directory is. -/
def isDirectory (path : Path) : IO Bool := do
  try
    let _ ← IO.FS.realPath (path ++ "/.")
    return path ≠ ""
  catch _ => return false

def snapshot (paths : List Path) : IO Reader := do
  let found ← paths.eraseDups.mapM fun path => return (path, ← readPath path)
  return fun path => ((found.find? fun f => f.1 == path).map (·.2)).getD (.error .missing)

def environment : IO (Option (Dict String)) := do
  let paths := CommandLine.envFiles (toString (← IO.currentDir))
  let files ← snapshot paths
  let mentioned := paths.flatMap fun path => (files path).toOption.elim [] EnvFile.words
  let names := (Setting.all.map Setting.variable ++ mentioned).eraseDups
  let set ← names.filterMapM fun name => return (← IO.getEnv name).map fun value => (name, value)
  return CommandLine.withEnvFile files paths set

def succeeds (action : IO Unit) : IO Bool := do
  try
    action
    return true
  catch _ => return false

def write (root : Path) (name text : String) : IO (Except RenderError Path) := do
  let path := Path.join root name
  if !(root = "" || (← succeeds (IO.FS.createDirAll root))) then return .error (.write root)
  if ← succeeds (IO.FS.writeFile path text) then return .ok path else return .error (.write path)

def generate (s : Settings) (g : Generation) : IO Report := do
  let artifacts := g.schema.artifacts
  let files ← snapshot (artifacts.flatMap fun a => a.templates.flatMap s.roots.candidates)
  let mut binder := s.binder
  let mut report := g.schema.initialReport
  for a in artifacts do
    let (rendering, next) := a.render g files binder
    binder := next
    let outcome ← match rendering.outcome with
      | .ok (name, text) => write s.outputPath name text
      | .error e => pure (.error e)
    report := report.record { artifact := rendering.artifact, outcome, stage := rendering.stage }
  return report.inOrder

def now : IO Instant := do
  let t ← Std.Time.Timestamp.now
  return { seconds := t.val.second.val, nanoseconds := t.val.nano.val.toNat }

def usage : String :=
  "Usage: " ++ "\n".intercalate ("apimanifest [OPTIONS] --manifest <FILE>" ::
    Setting.all.map fun s => "  -" ++ s.short.toString ++ ", --" ++ s.long ++ " <VALUE>  [env: " ++ s.variable ++ "]")

def run (s : Settings) : IO CommandLine.ExitCode := do
  match s.load (← snapshot [s.manifest]) with
  | .error e =>
    IO.eprintln (e.message?.getD ("unable to read manifest '" ++ s.manifest ++ "'"))
    return .failure
  | .ok m =>
    let report ← generate s { schema := m.resolve, generatedAt := ← now }
    for e in report.schemaErrors do
      IO.eprintln e.message
    for (artifact, e) in report.errors do
      IO.eprintln (artifact ++ ": " ++ e.message)
    return CommandLine.exitCodeOf report

def start (arguments : List String) : IO CommandLine.ExitCode := do
  let some environment ← environment | do
    IO.eprintln "error: the environment file holds a value with a NUL in it"
    return .abort
  match CommandLine.settings (fun _ => false) arguments environment with
  | .error ending =>
    match ending with
    | .help => IO.println usage
    | .version => IO.println "0.1.0"
    | .usage e => IO.eprintln ("error: " ++ e.message ++ "\n\n" ++ usage)
    return ending.exitCode
  | .ok s =>
    let beside ← isDirectory (Settings.besideManifest s.manifest)
    run { s with customRoot := s.customRoot.or (Settings.customRootOf (fun _ => beside) s.manifest) }

end ApiManifest.Command

def main (arguments : List String) : IO UInt32 := do
  return (← ApiManifest.Command.start arguments).toNat.toUInt32
