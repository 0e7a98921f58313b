import ApiManifest.Text.Utf8

/-!
Tags of nodes, with their handles replaced. A tag is made of bytes: the escapes in it need not spell
characters.
-/

namespace ApiManifest.Yaml

structure Tag where
  bytes : List UInt8
  deriving DecidableEq, Repr

namespace Tag

/-- What counts of a written tag: it ends before the first zero byte. -/
def cut (bytes : List UInt8) : List UInt8 :=
  bytes.takeWhile (· ≠ 0)

def core (name : String) : Tag :=
  ⟨Text.Utf8.encode ("tag:yaml.org,2002:" ++ name)⟩

def isLocal (t : Tag) : Bool :=
  t.bytes.head? == some 0x21

def withoutMark : List Char → List Char
  | ['!'] => ['!']
  | '!' :: cs => cs
  | cs => cs

/-- The name of the type that a local tag asks for, if it can be read: what follows the exclamation
mark, or the mark if nothing does. One more mark in front makes no difference. -/
def typeName? (t : Tag) : Option String :=
  match t.bytes with
  | 0x21 :: bytes =>
    (Text.Utf8.decode? (if bytes.isEmpty then [0x21] else bytes)).map fun cs => String.ofList (withoutMark cs)
  | _ => none

end Tag

end ApiManifest.Yaml
