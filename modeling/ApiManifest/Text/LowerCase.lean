import ApiManifest.Text.LowerCaseTable

/-!
Full Unicode lower-casing, character by character or for a whole text. The two differ in the
capital sigma only: in a text it becomes the final form at the end of a word.
-/

namespace ApiManifest.Text

def inRanges (ranges : List (Nat × Nat)) (c : Char) : Bool :=
  ranges.any fun r => r.1 ≤ c.toNat && c.toNat ≤ r.2

def isCased (c : Char) : Bool :=
  inRanges casedRanges c

def isCaseIgnorable (c : Char) : Bool :=
  inRanges caseIgnorableRanges c

/-- The lower-case form of one character. The dotted capital I is the one character whose form has
two: an i and a combining dot. -/
def lowerChar (c : Char) : List Char :=
  if c.toNat == 0x0130 then ['i', Char.ofNat 0x0307]
  else
    match lowerRuns.find? fun (first, last, step, _) =>
        first ≤ c.toNat && c.toNat ≤ last && (c.toNat - first) % step == 0 with
    | some (_, _, _, offset) => [Char.ofNat (c.toNat + offset).toNat]
    | none => [c]

def startsCased (cs : List Char) : Bool :=
  match cs.dropWhile isCaseIgnorable with
  | c :: _ => isCased c
  | [] => false

/-- Lower-cases what follows `before`, the characters already read, the last one first. -/
def lowerAfter (before : List Char) : List Char → List Char
  | [] => []
  | c :: cs =>
    (if c == 'Σ' then [if startsCased before && !startsCased cs then 'ς' else 'σ'] else lowerChar c)
      ++ lowerAfter (c :: before) cs

/-- The text in lower case, a capital sigma at the end of a word becoming the final form. -/
def lowerText (s : String) : String :=
  String.ofList (lowerAfter [] s.toList)

end ApiManifest.Text
