import ApiManifest.Text.Blank
import ApiManifest.Text.Identifier

/-!
The template language: text with tags in double braces. A tag substitutes a value, includes a partial,
or opens, divides or closes a condition.
-/

namespace ApiManifest.Template

open Text

inductive Node where
  | text (s : String)
  | value (path : String)
  | include (name : String)
  | cond (path : String) (onTrue onFalse : List Node)
  deriving Inhabited

inductive SyntaxError where
  | unterminated
  | badInclude (tag : String)
  | badCondition (tag : String)
  | strayElse
  | strayEnd
  | badTag (tag : String)
  | unclosed (path : String)
  deriving DecidableEq, Repr

def braced (inner : String) : String :=
  "\x7b\x7b" ++ inner ++ "\x7d\x7d"

def SyntaxError.message : SyntaxError → String
  | .unterminated => "unterminated '\x7b\x7b' tag"
  | .badInclude tag => "invalid partial name in '" ++ tag ++ "'"
  | .badCondition tag => "invalid condition in '" ++ tag ++ "'"
  | .strayElse => "'" ++ braced "else" ++ "' outside of '" ++ braced "#if" ++ "'"
  | .strayEnd => "'" ++ braced "/if" ++ "' without matching '" ++ braced "#if" ++ "'"
  | .badTag tag => "invalid tag '" ++ tag ++ "'"
  | .unclosed path => "unclosed '" ++ braced ("#if " ++ path) ++ "'"

/-! ## Pieces -/

inductive Piece where
  | text (cs : List Char)
  | tag (inner : List Char)
  deriving DecidableEq, Repr

/-- What stands before the first closing braces of the line, and what follows them. -/
def closeTag : List Char → Option (List Char × List Char)
  | [] => none
  | '}' :: '}' :: cs => some ([], cs)
  | c :: cs => if c = '\n' then none else (closeTag cs).map fun (inner, rest) => (c :: inner, rest)

/-- The tag that starts here, if one does: it ends with the first closing braces, on the same line. -/
def openTag : List Char → Option (List Char × List Char)
  | '{' :: '{' :: cs => closeTag cs
  | _ => none

/-- Cuts a text at its tags. Of the characters, `skip` are passed over, being those of a tag that has been
read; `before` is the text read since the last tag, backwards. -/
def piecesFrom (skip : Nat) (before : List Char) : List Char → List Piece
  | [] => [.text before.reverse]
  | c :: cs =>
    match skip with
    | left + 1 => piecesFrom left before cs
    | 0 =>
      match openTag (c :: cs) with
      | some (inner, _) => .text before.reverse :: .tag inner :: piecesFrom (inner.length + 3) [] cs
      | none => piecesFrom 0 (c :: before) cs

def pieces (s : String) : List Piece :=
  piecesFrom 0 [] s.toList

/-! ## Tokens -/

inductive Token where
  | text (s : String)
  | value (path : String)
  | include (name : String)
  | ifStart (path : String)
  | ifElse
  | ifEnd
  deriving DecidableEq, Repr

def tagToken (inner : List Char) : Except SyntaxError Token :=
  let tag := braced (String.ofList inner)
  let inner := trim inner
  match inner with
  | '>' :: name =>
    let name := trim name
    if isDottedIdentifier name then .ok (.include (String.ofList name)) else .error (.badInclude tag)
  | '#' :: 'i' :: 'f' :: path =>
    let path := trim path
    if isDottedIdentifier path then .ok (.ifStart (String.ofList path)) else .error (.badCondition tag)
  | _ =>
    if inner = ['e', 'l', 's', 'e'] then .ok .ifElse
    else if inner = ['/', 'i', 'f'] then .ok .ifEnd
    else if isDottedIdentifier inner then .ok (.value (String.ofList inner))
    else .error (.badTag tag)

def Piece.token : Piece → Except SyntaxError Token
  | .text cs => if hasPart ['{', '{'] cs then .error .unterminated else .ok (.text (String.ofList cs))
  | .tag inner => tagToken inner

/-! ## Trees -/

/-- A condition that is still open: the nodes before it, backwards, its path, and its first branch once
`else` is read. -/
structure OpenCond where
  before : List Node
  path : String
  onTrue : Option (List Node) := none

def OpenCond.close (o : OpenCond) (last : List Node) : Node :=
  match o.onTrue with
  | none => .cond o.path last.reverse []
  | some onTrue => .cond o.path onTrue last.reverse

/-- Builds the nodes from the pieces: `done` are those of the innermost branch, backwards, and `conds`
the open conditions around it. The first fault in the order of the text is reported. -/
def build : List Piece → List Node → List OpenCond → Except SyntaxError (List Node)
  | [], done, [] => .ok done.reverse
  | [], _, o :: _ => .error (.unclosed o.path)
  | p :: ps, done, conds => do
    match ← p.token, conds with
    | .text s, _ => build ps (if s = "" then done else .text s :: done) conds
    | .value path, _ => build ps (.value path :: done) conds
    | .include name, _ => build ps (.include name :: done) conds
    | .ifStart path, _ => build ps [] ({ before := done, path } :: conds)
    | .ifElse, o :: conds =>
      if o.onTrue.isSome then throw .strayElse
      else build ps [] ({ o with onTrue := some done.reverse } :: conds)
    | .ifElse, [] => throw .strayElse
    | .ifEnd, o :: conds => build ps (o.close done :: o.before) conds
    | .ifEnd, [] => throw .strayEnd

def parse (source : String) : Except SyntaxError (List Node) :=
  build (pieces source) [] []

end ApiManifest.Template
