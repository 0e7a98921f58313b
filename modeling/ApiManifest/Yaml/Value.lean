import ApiManifest.Yaml.Node

/-!
Values: what a document holds where anything may stand. Two keys of one mapping are never the same.
-/

namespace ApiManifest.Yaml

inductive Value where
  | null
  | bool (b : Bool)
  | number (n : Number)
  | string (s : String)
  | sequence (items : List Value)
  | mapping (entries : List (Value × Value))
  | typed (name : String) (v : Value)
  deriving Inhabited

namespace Value

mutual
/-- Are the values the same? The order of a mapping's entries makes no difference. -/
def same : Value → Value → Bool
  | .null, .null => true
  | .bool a, .bool b => a == b
  | .number a, .number b => a == b
  | .string a, .string b => a == b
  | .sequence as, .sequence bs => sameItems as bs
  | .mapping as, .mapping bs => as.length == bs.length && entriesWithin as bs
  | .typed m a, .typed n b => m == n && same a b
  | _, _ => false

def sameItems : List Value → List Value → Bool
  | [], [] => true
  | a :: as, b :: bs => same a b && sameItems as bs
  | _, _ => false

def entriesWithin : List (Value × Value) → List (Value × Value) → Bool
  | [], _ => true
  | (k, v) :: as, bs => (bs.any fun b => same k b.1 && same v b.2) && entriesWithin as bs
end

def ofTag (tag : Option Tag) (v : Value) : Value :=
  match tag.bind Tag.typeName? with
  | some name => .typed name v
  | none => v

def ofScalar (s : Scalar) : Except Fault Value :=
  match s.meaning with
  | .null => .ok (ofTag s.tag .null)
  | .bool b => .ok (ofTag s.tag (.bool b))
  | .number n => .ok (ofTag s.tag (.number n))
  | .string => .ok (ofTag s.tag (.string s.text))
  | .malformed => .error .wrongKind

mutual
def ofNode : Node → Except Fault Value
  | .scalar s => ofScalar s
  | .sequence tag items => do return ofTag tag (.sequence (← ofItems items))
  | .mapping tag entries => do return ofTag tag (.mapping (← ofEntries [] entries))
  | .unreadable => .error .malformed

def ofItems : List Node → Except Fault (List Value)
  | [] => .ok []
  | n :: ns => do
    let v ← ofNode n
    return v :: (← ofItems ns)

/-- The entries that follow those of `before`; a key that is among them is refused before its value is
read. -/
def ofEntries (before : List (Value × Value)) : List (Node × Node) → Except Fault (List (Value × Value))
  | [] => .ok before
  | (k, v) :: es => do
    let key ← ofNode k
    if before.any fun b => same b.1 key then throw .malformed
    let value ← ofNode v
    ofEntries (before ++ [(key, value)]) es
end

end Value

end ApiManifest.Yaml
