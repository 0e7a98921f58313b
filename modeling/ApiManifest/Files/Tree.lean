import ApiManifest.Files.Path
import ApiManifest.Text.Utf8

/-!
File trees as values: what stands at each place, how a path leads to a place, and what can be read,
written, made and deleted there.
-/

namespace ApiManifest

/-- A place in a file tree: the names that lead to it from the top. -/
abbrev Place := List String

inductive Entry where
  | directory
  | file (bytes : List UInt8)
  deriving DecidableEq, Repr

/-- The entries of a tree below its top, each with its place, and the directory from which relative
paths start. -/
structure FileTree where
  entries : List (Place × Entry) := []
  working : Place := []

/-- Why a path cannot be used: nothing is there, or the way to it or what is there is of the wrong kind. -/
inductive FileFault where
  | missing
  | unusable
  deriving DecidableEq, Repr

abbrev Reader := Path → Except FileFault (List UInt8)

namespace FileTree

def entry? (t : FileTree) (place : Place) : Option Entry :=
  if place.isEmpty then some .directory else (t.entries.find? fun e => e.1 == place).map (·.2)

def set (t : FileTree) (place : Place) (entry : Entry) : FileTree :=
  { t with entries := (place, entry) :: t.entries.filter fun e => e.1 != place }

def erase (t : FileTree) (place : Place) : FileTree :=
  { t with entries := t.entries.filter fun e => e.1 != place }

def workingPath (t : FileTree) : Path :=
  "/" ++ "/".intercalate t.working

/-! ## Ways -/

/-- The most bytes that a name, and a path, may have. -/
def maxName : Nat := 255
def maxPath : Nat := 4095

def advance (t : FileTree) (at' : Place) (name : String) : Except FileFault Place :=
  match t.entry? at' with
  | none => .error .missing
  | some (.file _) => .error .unusable
  | some .directory =>
    if name = "" || name = "." then .ok at'
    else if name = ".." then .ok at'.dropLast
    else if maxName < name.utf8ByteSize then .error .unusable
    else .ok (at' ++ [name])

def start (t : FileTree) (p : Path) : Place :=
  if p.isAbsolute then [] else t.working

/-- The place that a path leads to; there may be nothing there. -/
def find (t : FileTree) (p : Path) : Except FileFault Place :=
  if p = "" then .error .missing
  else if maxPath < p.utf8ByteSize || p.toList.contains '\x00' then .error .unusable
  else p.names.foldlM t.advance (t.start p)

/-! ## Reading -/

def read (t : FileTree) : Reader := fun p => do
  match t.entry? (← t.find p) with
  | some (.file bytes) => return bytes
  | some .directory => throw .unusable
  | none => throw .missing

def isDirectory (t : FileTree) (p : Path) : Bool :=
  match t.find p with
  | .ok place => t.entry? place == some .directory
  | .error _ => false

/-! ## Changing -/

def advanceMaking (t : FileTree) (at' : Place) (name : String) : Except FileFault (FileTree × Place) := do
  let place ← t.advance at' name
  match t.entry? place with
  | some .directory => return (t, place)
  | some (.file _) => throw .unusable
  | none => return (t.set place .directory, place)

def makeAlong (t : FileTree) (at' : Place) : List String → Bool × FileTree
  | [] => (true, t)
  | name :: names =>
    match t.advanceMaking at' name with
    | .ok (t, place) => makeAlong t place names
    | .error _ => (false, t)

/-- Makes a directory with those above it, and tells whether it is there then. Nothing is made for
the empty path, nor for a path that ends in a point: that one has to be there. -/
def makeDirectories (t : FileTree) (p : Path) : Bool × FileTree :=
  if p = "" then (true, t)
  else if maxPath < p.utf8ByteSize || p.toList.contains '\x00' then (false, t)
  else
    let names := (p.names.reverse.dropWhile (· = "")).reverse
    if names.getLast? = some "." then (t.isDirectory p, t) else t.makeAlong (t.start p) names

def write (t : FileTree) (p : Path) (bytes : List UInt8) : Bool × FileTree :=
  match t.find p with
  | .error _ => (false, t)
  | .ok place =>
    if t.entry? place = some .directory then (false, t) else (true, t.set place (.file bytes))

def install (t : FileTree) (p : Path) (bytes : List UInt8) : FileTree :=
  ((t.makeDirectories (p.parent?.getD "")).2.write p bytes).2

def delete (t : FileTree) (p : Path) : Bool × FileTree :=
  match t.find p with
  | .error _ => (false, t)
  | .ok place =>
    match t.entry? place with
    | some (.file _) => (true, t.erase place)
    | _ => (false, t)

/-! ## Comparing -/

/-- The files below the working directory, by their paths from there, in the order of these. -/
def files (t : FileTree) : List (Path × List UInt8) :=
  let here := t.entries.filterMap fun (place, entry) =>
    match entry, Text.dropFront? t.working place with
    | .file bytes, some names => some ("/".intercalate names, bytes)
    | _, _ => none
  here.mergeSort fun a b => a.1 ≤ b.1

def filesSince (earlier t : FileTree) : List (Path × List UInt8) :=
  let before := earlier.files
  t.files.filter fun f => !before.contains f

end FileTree

end ApiManifest
