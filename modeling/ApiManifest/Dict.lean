/-!
Dictionaries that keep the order in which their names were first set.
-/

namespace ApiManifest

abbrev Dict (α : Type) := List (String × α)

namespace Dict

variable {α β : Type}

def value? (d : Dict α) (name : String) : Option α :=
  (d.find? fun e => e.1 == name).map (·.2)

def has (d : Dict α) (name : String) : Bool :=
  d.any fun e => e.1 == name

/-- Sets a name: in its place if it is there, at the end otherwise. -/
def set (name : String) (value : α) : Dict α → Dict α
  | [] => [(name, value)]
  | (n, v) :: rest => if n == name then (n, value) :: rest else (n, v) :: set name value rest

def setSorted (name : String) (value : α) : Dict α → Dict α
  | [] => [(name, value)]
  | (n, v) :: rest =>
    if name = n then (name, value) :: rest
    else if name < n then (name, value) :: (n, v) :: rest
    else (n, v) :: setSorted name value rest

def remove (name : String) (d : Dict α) : Dict α :=
  d.filter fun e => e.1 != name

def names (d : Dict α) : List String :=
  d.map (·.1)

def values (d : Dict α) : List α :=
  d.map (·.2)

def ofList (entries : List (String × α)) : Dict α :=
  entries.foldl (fun d e => set e.1 e.2 d) []

end Dict

end ApiManifest
