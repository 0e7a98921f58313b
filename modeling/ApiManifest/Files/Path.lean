import ApiManifest.Text.Split

/-!
Paths as they are written: joined, cut and compared as texts, whatever they lead to.
-/

namespace ApiManifest

abbrev Path := String

namespace Path

open Text

def isAbsolute (p : Path) : Bool :=
  p.toList.head? == some '/'

/-- A path taken from another one on. An absolute path replaces what it is joined to. -/
def join (base p : Path) : Path :=
  if isAbsolute p then p
  else if base = "" || base.toList.getLast? == some '/' then base ++ p
  else base ++ "/" ++ p

/-- The names between the slashes, empty ones included. -/
def names (p : Path) : List String :=
  (splitOn '/' p.toList).map String.ofList

/-! ## Parents -/

/-- What the path starts with, a slash or a lone point, and the names that follow. -/
def headAndBody (p : Path) : String × List String :=
  match p.toList with
  | '/' :: rest => ("/", names (String.ofList rest))
  | ['.'] => (".", [])
  | '.' :: '/' :: rest => (".", "" :: names (String.ofList rest))
  | _ => ("", names p)

def dropIdle (names : List String) : List String :=
  (names.reverse.dropWhile fun n => n = "" || n = ".").reverse

/-- The path without its last name; nothing has a parent neither the root nor the empty path. -/
def parent? (p : Path) : Option Path :=
  let (head, body) := headAndBody p
  match dropIdle body with
  | [] => if head = "." then some "" else none
  | kept => some (head ++ "/".intercalate (dropIdle kept.dropLast))

def ancestorsWithin : Nat → Path → List Path
  | 0, p => [p]
  | n + 1, p =>
    match p.parent? with
    | some q => p :: ancestorsWithin n q
    | none => [p]

/-- The path, its parent, the parent of that, and so on. Each is shorter than the one before. -/
def ancestors (p : Path) : List Path :=
  ancestorsWithin p.length p

/-! ## Order -/

inductive Step where
  | root
  | here
  | up
  | name (s : String)
  deriving DecidableEq, Repr

namespace Step

def ofName? (s : String) : Option Step :=
  if s = "" || s = "." then none
  else if s = ".." then some .up
  else some (.name s)

def rank : Step → Nat
  | root => 0
  | here => 1
  | up => 2
  | name _ => 3

def text : Step → String
  | name s => s
  | _ => ""

def before (a b : Step) : Bool :=
  a.rank < b.rank || a.rank == b.rank && decide (a.text < b.text)

end Step

/-- The steps of a path. A lone point counts at the start only. -/
def steps (p : Path) : List Step :=
  let (head, body) := headAndBody p
  (if head = "/" then [.root] else if head = "." then [.here] else []) ++ body.filterMap Step.ofName?

def stepsLe : List Step → List Step → Bool
  | [], _ => true
  | _ :: _, [] => false
  | a :: as, b :: bs => a.before b || a == b && stepsLe as bs

def le (p q : Path) : Bool :=
  stepsLe p.steps q.steps

end Path

end ApiManifest
