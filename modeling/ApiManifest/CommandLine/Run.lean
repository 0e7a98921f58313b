import ApiManifest.CommandLine.Arguments
import ApiManifest.CommandLine.EnvFile
import ApiManifest.Generate.Run

/-!
The command: settings from the arguments, the variables and an environment file; then one run.
-/

namespace ApiManifest.CommandLine

inductive ExitCode where
  | success
  | failure
  | usage
  /-- Nothing can be done, as the environment file gives a variable a value that none can have. -/
  | abort
  deriving DecidableEq, Repr

def ExitCode.toNat : ExitCode → Nat
  | success => 0
  | failure => 1
  | usage => 2
  | abort => 101

def Ending.exitCode : Ending → ExitCode
  | help => .success
  | version => .success
  | usage _ => .usage

def exitCodeOf (r : Report) : ExitCode :=
  if r.isSuccess then .success else .failure

/-- Where the environment file is looked for: in the working directory and in those above it. -/
def envFiles (workingPath : Path) : List Path :=
  workingPath.ancestors.map fun directory => directory.join ".env"

/-- The variables with those of the first environment file that can be read, unless one is refused. -/
def withEnvFile (files : Reader) : List Path → Dict String → Option (Dict String)
  | [], environment => some environment
  | path :: paths, environment =>
    match files path with
    | .ok bytes => EnvFile.load bytes environment
    | .error _ => withEnvFile files paths environment

def run (arguments : List String) (environment : Dict String) (generatedAt : Instant) (tree : FileTree) :
    ExitCode × FileTree :=
  match withEnvFile tree.read (envFiles tree.workingPath) environment with
  | none => (.abort, tree)
  | some environment =>
    match settings tree.isDirectory arguments environment with
    | .error ending => (ending.exitCode, tree)
    | .ok s =>
      match s.run generatedAt tree with
      | (.error _, tree) => (.failure, tree)
      | (.ok report, tree) => (exitCodeOf report, tree)

end ApiManifest.CommandLine
