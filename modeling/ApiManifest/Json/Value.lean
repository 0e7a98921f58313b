import ApiManifest.Dict
import ApiManifest.Json.Double

/-!
JSON values. An object is the list of its members in the order in which they are written.
-/

namespace ApiManifest

/-- A whole number of at most 64 bits, or a double. -/
inductive Json.Number where
  | int (i : Int)
  | double (d : Json.Double)
  deriving DecidableEq, Repr, Inhabited

inductive Json where
  | null
  | bool (b : Bool)
  | number (n : Json.Number)
  | string (s : String)
  | array (items : List Json)
  | object (members : List (String × Json))
  deriving Inhabited

namespace Json

instance : Coe String Json := ⟨Json.string⟩
instance : Coe Bool Json := ⟨Json.bool⟩

def nat (n : Nat) : Json :=
  .number (.int n)

def ofOption (f : α → Json) : Option α → Json
  | some a => f a
  | none => .null

def member? (key : String) : Json → Option Json
  | .object members => (members.reverse.find? fun m => m.1 == key).map (·.2)
  | _ => none

mutual
/-- The value with the members of every object in the order of their names, the last one of a name
counting. -/
def sorted : Json → Json
  | .array items => .array (sortedItems items)
  | .object members => .object (sortedMembers members [])
  | .null => .null
  | .bool b => .bool b
  | .number n => .number n
  | .string s => .string s

def sortedItems : List Json → List Json
  | [] => []
  | item :: items => sorted item :: sortedItems items

def sortedMembers : List (String × Json) → List (String × Json) → List (String × Json)
  | [], done => done
  | (key, value) :: rest, done => sortedMembers rest (Dict.setSorted key (sorted value) done)
end

/-- What a condition makes of a value: `null`, `false`, zero and everything empty are false. -/
def isTruthy : Json → Bool
  | .null => false
  | .bool b => b
  | .number (.int i) => i ≠ 0
  | .number (.double d) => !d.isZero
  | .string s => s ≠ ""
  | .array items => !items.isEmpty
  | .object members => !members.isEmpty

end Json

end ApiManifest
