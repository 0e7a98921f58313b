import ApiManifest.Dict
import ApiManifest.Yaml.Node
import ApiManifest.Yaml.Token

/-!
Documents from tokens. What comes before a fault is kept, as the fault may not be the first one that
matters. Anchors and aliases are numbered while a document is read, and aliases are replaced by what they
stand for afterwards, within limits on nesting and on repetition.
-/

namespace ApiManifest.Yaml

/-- A node in which aliases still stand as numbers. -/
inductive Draft where
  | alias (number : Nat)
  | scalar (anchor : Option Nat) (s : Scalar)
  | sequence (anchor : Option Nat) (tag : Option Tag) (items : List Draft)
  | mapping (anchor : Option Nat) (tag : Option Tag) (entries : List (Draft × Draft))
  | fault
  deriving Inhabited

/-! ## Reading nodes -/

/-- The tokens to come, none after a fault; the names of the anchors met with their numbers, and the tag
handles; and how many events were met: a scalar or an alias is one, a collection has one at its start and
one at its end. -/
structure Reader where
  tokens : List Token
  anchors : Dict Nat := []
  handles : Dict (List UInt8) := []
  events : Nat := 0

abbrev Read := StateM Reader

namespace Read

def peek : Read Token := do
  return (← get).tokens.headD .invalid

def skip : Read Unit :=
  modify fun r => { r with tokens := r.tokens.drop 1 }

def count : Read Unit :=
  modify fun r => { r with events := r.events + 1 }

def giveUp : Read Draft := do
  modify fun r => { r with tokens := [] }
  return .fault

/-- Numbers an anchor: by how many different names came before. A name met again counts among
them. -/
def anchor (name : String) : Read Nat := do
  let r ← get
  let number := r.anchors.length
  set { r with anchors := Dict.set name number r.anchors }
  return number

def number (name : Option String) : Read (Option Nat) :=
  match name with
  | some name => some <$> anchor name
  | none => return none

def resolveTag (handle : String) (suffix : List UInt8) : Read (Option Tag) := do
  if handle = "" then return some ⟨suffix⟩
  return ((← get).handles.value? handle).map fun expansion => ⟨expansion ++ suffix⟩

def properties : Nat → Option String → Option Tag → Read (Option String × Option Tag)
  | 0, anchor, tag => return (anchor, tag)
  | fuel + 1, anchor, tag => do
    match ← peek with
    | .anchor name => if anchor.isSome then return (anchor, tag) else skip; properties fuel (some name) tag
    | .tag handle suffix =>
      if tag.isSome then return (anchor, tag)
      else
        skip
        match ← resolveTag handle suffix with
        | some full => properties fuel anchor (some full)
        | none =>
          discard giveUp
          return (none, none)
    | _ => return (anchor, tag)

def emptyScalar (anchor : Option Nat) (tag : Option Tag) : Read Draft := do
  count
  return .scalar anchor { text := "", tag }

/-- A node, unless one of the tokens `ends` comes next: then nothing is written. -/
def nodeUnless (ends : List Token) (node : Read Draft) : Read Draft := do
  if ends.contains (← peek) then emptyScalar none none else node

def valueUnless (ends : List Token) (node : Read Draft) : Read Draft := do
  match ← peek with
  | .value => skip; nodeUnless ends node
  | .invalid => giveUp
  | _ => emptyScalar none none

mutual
/-- Reads a node: `block` tells whether collections in block style may stand here, `indentless`
whether a sequence may be indented no further than the mapping around it. -/
def node (block indentless : Bool) : Nat → Read Draft
  | 0 => giveUp
  | fuel + 1 => do
    match ← peek with
    | .alias name =>
      skip
      match (← get).anchors.value? name with
      | some number => count; return .alias number
      | none => giveUp
    | _ =>
      let (name, tag) ← properties 2 none none
      match ← peek with
      | .scalar style text =>
        skip
        count
        return .scalar (← number name) { text, style, tag }
      | .flowSequenceStart => skip; count; return .sequence (← number name) tag (← flowItems true fuel)
      | .flowMappingStart => skip; count; return .mapping (← number name) tag (← flowEntries true fuel)
      | .blockSequenceStart =>
        if block then skip; count; return .sequence (← number name) tag (← blockItems fuel) else giveUp
      | .blockMappingStart =>
        if block then skip; count; return .mapping (← number name) tag (← blockEntries fuel) else giveUp
      | .invalid => giveUp
      | t =>
        if indentless && t == .blockEntry then
          count
          return .sequence (← number name) tag (← indentlessItems fuel)
        else if name.isSome || tag.isSome then emptyScalar (← number name) tag
        else giveUp

def blockItems : Nat → Read (List Draft)
  | 0 => return [← giveUp]
  | fuel + 1 => do
    match ← peek with
    | .blockEntry =>
      skip
      let item ← nodeUnless [.blockEntry, .blockEnd] (node true false fuel)
      return item :: (← blockItems fuel)
    | .blockEnd => skip; count; return []
    | _ => return [← giveUp]

def indentlessItems : Nat → Read (List Draft)
  | 0 => return [← giveUp]
  | fuel + 1 => do
    match ← peek with
    | .blockEntry =>
      skip
      let item ← nodeUnless [.blockEntry, .key, .value, .blockEnd] (node true false fuel)
      return item :: (← indentlessItems fuel)
    | .invalid => return [← giveUp]
    | _ => count; return []

def blockEntries : Nat → Read (List (Draft × Draft))
  | 0 => return [(← giveUp, .fault)]
  | fuel + 1 => do
    match ← peek with
    | .key =>
      skip
      let key ← nodeUnless [.key, .value, .blockEnd] (node true true fuel)
      let value ← valueUnless [.key, .value, .blockEnd] (node true true fuel)
      return (key, value) :: (← blockEntries fuel)
    | .blockEnd => skip; count; return []
    | _ => return [(← giveUp, .fault)]

/-- The items of a sequence in brackets; an item with a colon is a mapping of one entry, which ends once it
is seen that something follows. -/
def flowItems (first : Bool) : Nat → Read (List Draft)
  | 0 => return [← giveUp]
  | fuel + 1 => do
    if !first && (← peek) == .flowEntry then skip
    else if !first && (← peek) != .flowSequenceEnd then discard giveUp
    match ← peek with
    | .flowSequenceEnd => skip; count; return []
    | .invalid => return [← giveUp]
    | .key =>
      skip
      count
      let key ← (do
        match ← peek with
        | .value | .flowEntry | .flowSequenceEnd => skip; emptyScalar none none
        | _ => node false false fuel)
      let value ← valueUnless [.flowEntry, .flowSequenceEnd] (node false false fuel)
      let unended := if (← peek) == .invalid then [(.fault, .fault)] else []
      count
      return .mapping none none ((key, value) :: unended) :: (← flowItems false fuel)
    | _ =>
      let item ← node false false fuel
      return item :: (← flowItems false fuel)

def flowEntries (first : Bool) : Nat → Read (List (Draft × Draft))
  | 0 => return [(← giveUp, .fault)]
  | fuel + 1 => do
    if !first && (← peek) == .flowEntry then skip
    else if !first && (← peek) != .flowMappingEnd then discard giveUp
    match ← peek with
    | .flowMappingEnd => skip; count; return []
    | .invalid => return [(← giveUp, .fault)]
    | .key =>
      skip
      let key ← nodeUnless [.value, .flowEntry, .flowMappingEnd] (node false false fuel)
      let value ← valueUnless [.flowEntry, .flowMappingEnd] (node false false fuel)
      return (key, value) :: (← flowEntries false fuel)
    | _ =>
      let key ← node false false fuel
      let value ← if (← peek) == .invalid then giveUp else emptyScalar none none
      return (key, value) :: (← flowEntries false fuel)
end

/-- Reads the directives before a document: at most one version, of the form 1.1 or 1.2, and each tag
handle at most once. Tells whether there are any. -/
def directives (versioned : Bool) : Nat → Read Bool
  | 0 => do
    discard giveUp
    return true
  | fuel + 1 => do
    match ← peek with
    | .versionDirective major minor =>
      if versioned || major ≠ 1 || (minor ≠ 1 && minor ≠ 2) then discard giveUp else skip
      discard <| directives true fuel
      return true
    | .tagDirective handle expansion =>
      if (← get).handles.has handle then discard giveUp else skip
      modify fun r => { r with handles := Dict.set handle expansion r.handles }
      discard <| directives versioned fuel
      return true
    | _ => return false

def defaultHandles : Dict (List UInt8) :=
  [("!", [0x21]), ("!!", (Tag.core "").bytes)]

/-- Reads the first document, up to after its end mark. A stream without one holds an empty scalar. -/
def firstDocument : Read Draft := do
  let fuel := 2 * (← get).tokens.length + 2
  if (← peek) == .streamEnd then return ← emptyScalar none none
  let directed ← directives false fuel
  modify fun r =>
    { r with handles := r.handles ++ defaultHandles.filter fun h => !r.handles.has h.1 }
  let root ← (do
    if (← peek) == .documentStart then
      skip
      match ← peek with
      | .versionDirective _ _ | .tagDirective _ _ | .documentStart | .documentEnd | .streamEnd =>
        emptyScalar none none
      | _ => node true false fuel
    else if directed then giveUp
    else node true false fuel)
  if (← peek) == .documentEnd then skip
  return root

end Read

/-! ## Replacing aliases -/

namespace Draft

def numbered (d : Draft) : Option Nat → List (Nat × Draft)
  | some n => [(n, d)]
  | none => []

def anchored : Draft → List (Nat × Draft)
  | .alias _ => []
  | .scalar n s => numbered (.scalar n s) n
  | .sequence n tag items => numbered (.sequence n tag items) n ++ anchoredItems items
  | .mapping n tag entries => numbered (.mapping n tag entries) n ++ anchoredEntries entries
  | .fault => []
where
  anchoredItems : List Draft → List (Nat × Draft)
    | [] => []
    | d :: ds => anchored d ++ anchoredItems ds
  anchoredEntries : List (Draft × Draft) → List (Nat × Draft)
    | [] => []
    | (k, v) :: es => anchored k ++ anchored v ++ anchoredEntries es

/-- The node itself, or what the alias stands for: the last anchored node of its number. Counts
down the aliases that may still be replaced; at none left, nothing can be read any more. -/
def target (anchors : List (Nat × Draft)) (d : Draft) : StateM Nat (Option Draft) := do
  match d with
  | .alias number =>
    match ← get with
    | 0 => return none
    | left + 1 =>
      set left
      return (anchors.find? fun a => a.1 == number).map (·.2)
  | d => return some d

/-- The node with its aliases replaced; `depth` is how many more collections may be nested. Once a
limit is passed, no alias that follows is replaced. -/
def expand (anchors : List (Nat × Draft)) : Nat → Draft → StateM Nat Node
  | depth, d => do
    match ← target anchors d with
    | some (.scalar _ s) => return .scalar s
    | some (.sequence _ tag items) =>
      match depth with
      | 0 => beyond
      | depth + 1 => return .sequence tag (← items.mapM (expand anchors depth))
    | some (.mapping _ tag entries) =>
      match depth with
      | 0 => beyond
      | depth + 1 =>
        return .mapping tag (← entries.mapM fun (k, v) => do
          return (← expand anchors depth k, ← expand anchors depth v))
    | _ => beyond
where
  beyond : StateM Nat Node := do
    set 0
    return .unreadable

end Draft

/-! ## Streams -/

structure Stream where
  document : Node
  continues : Bool

def maxDepth : Nat := 128

def aliasesPerEvent : Nat := 100

namespace Stream

def unreadable : Stream :=
  { document := .unreadable, continues := true }

def ofChars (cs : List Char) : Stream :=
  if cs.all isPrintable then
    let (draft, reader) := Id.run (Read.firstDocument.run { tokens := tokens cs })
    let rest := reader.tokens.dropWhile (· == .documentEnd)
    let (document, _) := Id.run ((draft.expand draft.anchored.reverse maxDepth).run (reader.events * aliasesPerEvent))
    { document
      continues := rest.head? != some .streamEnd }
  else unreadable

def ofBytes (bytes : List UInt8) : Stream :=
  match Text.Utf8.decode? bytes with
  | some cs => ofChars cs
  | none => unreadable

end Stream

end ApiManifest.Yaml
