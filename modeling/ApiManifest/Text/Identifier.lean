import ApiManifest.Text.Split

/-!
Identifiers: ASCII letters, digits and underscores, not starting with a digit; and paths of
identifiers joined by dots.
-/

namespace ApiManifest.Text

def isIdentifierStart (c : Char) : Bool :=
  c.isAlpha || c == '_'

def isIdentifierRest (c : Char) : Bool :=
  c.isAlphanum || c == '_'

def isIdentifier : List Char → Bool
  | [] => false
  | c :: cs => isIdentifierStart c && cs.all isIdentifierRest

def isDottedIdentifier (cs : List Char) : Bool :=
  (splitOn '.' cs).all isIdentifier

end ApiManifest.Text
