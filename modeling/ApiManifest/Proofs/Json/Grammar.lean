import ApiManifest.Proofs.Json.Quoted
import Mathlib.Data.List.DropRight

/-!
# JSON texts

Which text denotes which value, numbers apart: the grammar of JSON, with any blanks between its parts. The reader takes
each such text for its value, so that no text denotes two; and compact text is one that denotes the value written.
-/

namespace ApiManifest.Json

/-! ## The grammar -/

def Gap (cs : List Char) : Prop :=
  ∀ c ∈ cs, c = ' ' ∨ c = '\n' ∨ c = '\t' ∨ c = '\r'

inductive SpellsKey : List Char → String → Prop where
  | mk {before inner after : List Char} {key : String} (hb : Gap before) (ha : Gap after)
      (h : SpellsText inner key.toList) : SpellsKey (before ++ '"' :: (inner ++ '"' :: (after ++ [':']))) key

mutual

/-- The text denotes the value. -/
inductive Denotes : List Char → Json → Prop where
  | null : Denotes ['n', 'u', 'l', 'l'] .null
  | true : Denotes ['t', 'r', 'u', 'e'] (.bool true)
  | false : Denotes ['f', 'a', 'l', 's', 'e'] (.bool false)
  | string {inner : List Char} {s : String} (h : SpellsText inner s.toList) : Denotes ('"' :: (inner ++ ['"'])) (.string s)
  | emptyArray {gap : List Char} (hg : Gap gap) : Denotes ('[' :: (gap ++ [']'])) (.array [])
  | array {cs : List Char} {items : List Json} (h : DenotesItems cs items) : Denotes ('[' :: (cs ++ [']'])) (.array items)
  | emptyObject {gap : List Char} (hg : Gap gap) : Denotes ('{' :: (gap ++ ['}'])) (.object [])
  | object {cs : List Char} {members : List (String × Json)} (h : DenotesMembers cs members) :
      Denotes ('{' :: (cs ++ ['}'])) (.object members)

inductive DenotesItems : List Char → List Json → Prop where
  | one {before cs after : List Char} {item : Json} (hb : Gap before) (ha : Gap after) (h : Denotes cs item) :
      DenotesItems (before ++ (cs ++ after)) [item]
  | more {before cs after rest : List Char} {item : Json} {items : List Json} (hb : Gap before) (ha : Gap after)
      (h : Denotes cs item) (hrest : DenotesItems rest items) :
      DenotesItems (before ++ (cs ++ (after ++ ',' :: rest))) (item :: items)

inductive DenotesMembers : List Char → List (String × Json) → Prop where
  | one {name before cs after : List Char} {key : String} {value : Json} (hk : SpellsKey name key) (hb : Gap before)
      (ha : Gap after) (h : Denotes cs value) : DenotesMembers (name ++ (before ++ (cs ++ after))) [(key, value)]
  | more {name before cs after rest : List Char} {key : String} {value : Json} {members : List (String × Json)}
      (hk : SpellsKey name key) (hb : Gap before) (ha : Gap after) (h : Denotes cs value)
      (hrest : DenotesMembers rest members) :
      DenotesMembers (name ++ (before ++ (cs ++ (after ++ ',' :: rest)))) ((key, value) :: members)

end

def IsText (s : String) (j : Json) : Prop :=
  ∃ before cs after, Gap before ∧ Gap after ∧ Denotes cs j ∧ s.toList = before ++ (cs ++ after)

/-! ## Blanks -/

variable {cs gap rest : List Char} {fuel : Nat}

theorem skipBlanks_gap (hg : Gap gap) (cs : List Char) : skipBlanks (gap ++ cs) = skipBlanks cs :=
  List.dropWhile_append_of_pos fun c hc => by simpa [or_assoc] using hg c hc

theorem skipBlanks_skipBlanks (cs : List Char) : skipBlanks (skipBlanks cs) = skipBlanks cs :=
  List.dropWhile_idempotent _ _

theorem gap_nil : Gap [] :=
  fun _ h => nomatch h

theorem Denotes.head {j : Json} (h : Denotes cs j) : ∃ c ∈ ['n', 't', 'f', '"', '[', '{'], ∃ rest, cs = c :: rest := by
  cases h <;> simp

theorem Denotes.skipBlanks {j : Json} (h : Denotes cs j) (rest : List Char) : skipBlanks (cs ++ rest) = cs ++ rest := by
  obtain ⟨c, hc, cs, rfl⟩ := h.head
  simp only [List.mem_cons, List.not_mem_nil, or_false] at hc
  rcases hc with rfl | rfl | rfl | rfl | rfl | rfl <;> rfl

theorem readItems_skipBlanks (fuel : Nat) (cs : List Char) : readItems fuel (skipBlanks cs) = readItems fuel cs := by
  cases fuel with
  | zero => rfl
  | succ fuel => simp only [readItems, skipBlanks_skipBlanks]

theorem readMembers_skipBlanks (fuel : Nat) (cs : List Char) :
    readMembers fuel (skipBlanks cs) = readMembers fuel cs := by
  cases fuel with
  | zero => rfl
  | succ fuel => simp only [readMembers, skipBlanks_skipBlanks]

/-! ## Reading -/

section

variable {before after name next : List Char} {key : String} {item value : Json} {items : List Json}
  {members : List (String × Json)}

/-- One item is read; what comes after it tells whether there are more. -/
theorem readItems_item (hb : Gap before) (ha : Gap after) (h : Denotes cs item)
    (hread : readValue fuel (cs ++ (after ++ next)) = some (item, after ++ next)) :
    readItems (fuel + 1) (before ++ (cs ++ (after ++ next))) =
      match skipBlanks next with
      | ',' :: r => (readItems fuel r).map fun read => (item :: read.1, read.2)
      | ']' :: r => some ([item], r)
      | _ => none := by
  simp only [readItems, skipBlanks_gap hb, h.skipBlanks, hread, Option.bind_eq_bind, Option.bind_some,
    skipBlanks_gap ha, Option.map_eq_bind]
  rfl

theorem readMembers_member (hk : SpellsKey name key) (hb : Gap before) (ha : Gap after) (h : Denotes cs value)
    (hread : readValue fuel (cs ++ (after ++ next)) = some (value, after ++ next)) :
    readMembers (fuel + 1) (name ++ (before ++ (cs ++ (after ++ next)))) =
      match skipBlanks next with
      | ',' :: r => (readMembers fuel r).map fun read => ((key, value) :: read.1, read.2)
      | '}' :: r => some ([(key, value)], r)
      | _ => none := by
  obtain ⟨hbefore, hafter, htext⟩ := hk
  have hquote (r : List Char) : skipBlanks ('"' :: r) = '"' :: r := rfl
  have hcolon (r : List Char) : skipBlanks (':' :: r) = ':' :: r := rfl
  simp only [readMembers, List.append_assoc, List.cons_append, List.nil_append, skipBlanks_gap hbefore, hquote,
    readQuoted_text htext, Option.bind_eq_bind, Option.bind_some, skipBlanks_gap hafter, hcolon, skipBlanks_gap hb,
    h.skipBlanks, hread, skipBlanks_gap ha, String.ofList_toList, Option.map_eq_bind]
  rfl

theorem DenotesItems.skipBlanks_ne (h : DenotesItems cs items) (rest r : List Char) :
    skipBlanks (cs ++ rest) ≠ ']' :: r := by
  cases h with
  | one hb _ h | more hb _ h _ =>
      rw [List.append_assoc, List.append_assoc, skipBlanks_gap hb, h.skipBlanks]
      obtain ⟨c, hc, cs, rfl⟩ := h.head
      rintro he
      cases he
      simp at hc

theorem DenotesMembers.skipBlanks_ne (h : DenotesMembers cs members) (rest r : List Char) :
    skipBlanks (cs ++ rest) ≠ '}' :: r := by
  cases h with
  | one hk | more hk =>
      obtain ⟨hbefore, _, _⟩ := hk
      simp only [List.append_assoc, skipBlanks_gap hbefore]
      rintro he
      cases he

theorem readValue_array (hne : ∀ r, skipBlanks cs ≠ ']' :: r) (h : readItems fuel cs = some (items, rest)) :
    readValue (fuel + 1) ('[' :: cs) = some (.array items, rest) := by
  rw [readValue]
  split
  · exact absurd ‹_› (hne _)
  · rw [readItems_skipBlanks, h]
    rfl

theorem readValue_object (hne : ∀ r, skipBlanks cs ≠ '}' :: r) (h : readMembers fuel cs = some (members, rest)) :
    readValue (fuel + 1) ('{' :: cs) = some (.object members, rest) := by
  rw [readValue]
  split
  · exact absurd ‹_› (hne _)
  · rw [readMembers_skipBlanks, h]
    rfl

end

theorem Denotes.length_pos {j : Json} (h : Denotes cs j) : 0 < cs.length := by
  obtain ⟨c, _, cs, rfl⟩ := h.head
  exact Nat.succ_pos _

-- One unit of fuel for each character is enough, as every value, item and member takes one and has one at least.
mutual

/-- A value is read from the text that denotes it, before whatever follows. -/
theorem Denotes.read {cs : List Char} {j : Json} (h : Denotes cs j) (fuel : Nat) (hf : cs.length ≤ fuel)
    (rest : List Char) : readValue fuel (cs ++ rest) = some (j, rest) := by
  obtain ⟨fuel, rfl⟩ := Nat.exists_eq_add_one.mpr (h.length_pos.trans_le hf)
  match h with
  | .null => rfl
  | .true => rfl
  | .false => rfl
  | .string h => simp [readValue, readQuoted_text h]
  | .emptyArray hg =>
      have hskip : skipBlanks (']' :: rest) = ']' :: rest := rfl
      simp [readValue, skipBlanks_gap hg, hskip]
  | .array h =>
      simp only [List.length_cons, List.length_append, List.length_nil] at hf
      have hread := h.read fuel (by omega) rest
      rw [List.cons_append, List.append_assoc]
      exact readValue_array (h.skipBlanks_ne _) hread
  | .emptyObject hg =>
      have hskip : skipBlanks ('}' :: rest) = '}' :: rest := rfl
      simp [readValue, skipBlanks_gap hg, hskip]
  | .object h =>
      simp only [List.length_cons, List.length_append, List.length_nil] at hf
      have hread := h.read fuel (by omega) rest
      rw [List.cons_append, List.append_assoc]
      exact readValue_object (h.skipBlanks_ne _) hread

theorem DenotesItems.read {cs : List Char} {items : List Json} (h : DenotesItems cs items) (fuel : Nat)
    (hf : cs.length < fuel) (rest : List Char) : readItems fuel (cs ++ ']' :: rest) = some (items, rest) := by
  match h, fuel with
  | .one hb ha h, fuel + 1 =>
      simp only [List.length_append] at hf
      simp only [List.append_assoc]
      exact readItems_item hb ha h (h.read fuel (by omega) _)
  | .more hb ha h hrest, fuel + 1 =>
      simp only [List.length_append, List.length_cons] at hf
      have hskip (r : List Char) : skipBlanks (',' :: r) = ',' :: r := rfl
      simp only [List.append_assoc, List.cons_append]
      rw [readItems_item hb ha h (h.read fuel (by omega) _), hskip]
      simp only [hrest.read fuel (by omega) rest, Option.map_some]

theorem DenotesMembers.read {cs : List Char} {members : List (String × Json)} (h : DenotesMembers cs members)
    (fuel : Nat) (hf : cs.length < fuel) (rest : List Char) :
    readMembers fuel (cs ++ '}' :: rest) = some (members, rest) := by
  match h, fuel with
  | .one hk hb ha h, fuel + 1 =>
      simp only [List.length_append] at hf
      simp only [List.append_assoc]
      exact readMembers_member hk hb ha h (h.read fuel (by omega) _)
  | .more hk hb ha h hrest, fuel + 1 =>
      simp only [List.length_append, List.length_cons] at hf
      have hskip (r : List Char) : skipBlanks (',' :: r) = ',' :: r := rfl
      simp only [List.append_assoc, List.cons_append]
      rw [readMembers_member hk hb ha h (h.read fuel (by omega) _), hskip]
      simp only [hrest.read fuel (by omega) rest, Option.map_some]

end

theorem IsText.parse? {s : String} {j : Json} (h : IsText s j) : Json.parse? s = some j := by
  obtain ⟨before, cs, after, hb, ha, h, hs⟩ := h
  have hread := h.read (2 * s.toList.length + 2) (by simp [hs]; omega) after
  have hend : skipBlanks after = [] := by
    simpa [skipBlanks] using skipBlanks_gap ha []
  have hstart : skipBlanks s.toList = cs ++ after := by
    rw [hs, skipBlanks_gap hb, h.skipBlanks]
  simp only [Json.parse?, hstart, hread, hend, Option.bind_eq_bind, Option.bind_some, List.isEmpty_nil, if_pos]
  rfl

theorem IsText.unique {s : String} {j j' : Json} (h : IsText s j) (h' : IsText s j') : j' = j :=
  Option.some.inj (h'.parse?.symm.trans h.parse?)

/-! ## Writing -/

mutual

def Numberless : Json → Prop
  | .null => True
  | .bool _ => True
  | .number _ => False
  | .string _ => True
  | .array items => NumberlessItems items
  | .object members => NumberlessMembers members

def NumberlessItems : List Json → Prop
  | [] => True
  | item :: items => item.Numberless ∧ NumberlessItems items

def NumberlessMembers : List (String × Json) → Prop
  | [] => True
  | (_, value) :: members => value.Numberless ∧ NumberlessMembers members

end

theorem spellsKey_quoted (key : String) : SpellsKey (quoted key ++ [':']) key := by
  simpa [quoted] using SpellsKey.mk gap_nil gap_nil (spellsText_escaped key.toList)

mutual

theorem denotes_chars : (j : Json) → j.Numberless → Denotes j.chars j
  | .null, _ => .null
  | .bool true, _ => .true
  | .bool false, _ => .false
  | .string s, _ => .string (spellsText_escaped s.toList)
  | .array [], _ => .emptyArray gap_nil
  | .array (item :: items), h => .array (denotesItems_itemChars (item :: items) (List.cons_ne_nil _ _) h)
  | .object [], _ => .emptyObject gap_nil
  | .object (member :: members), h =>
      .object (denotesMembers_memberChars (member :: members) (List.cons_ne_nil _ _) h)

theorem denotesItems_itemChars :
    (items : List Json) → items ≠ [] → NumberlessItems items → DenotesItems (itemChars items) items
  | [], hne, _ => absurd rfl hne
  | [item], _, h => by
      have hone := DenotesItems.one gap_nil gap_nil (denotes_chars item h.1)
      rwa [List.nil_append, List.append_nil] at hone
  | item :: item' :: items, _, h =>
      .more gap_nil gap_nil (denotes_chars item h.1) (denotesItems_itemChars (item' :: items) (List.cons_ne_nil _ _) h.2)

theorem denotesMembers_memberChars :
    (members : List (String × Json)) → members ≠ [] → NumberlessMembers members →
      DenotesMembers (memberChars members) members
  | [], hne, _ => absurd rfl hne
  | [(key, value)], _, h => by
      have hone := DenotesMembers.one (spellsKey_quoted key) gap_nil gap_nil (denotes_chars value h.1)
      simpa [memberChars] using hone
  | (key, value) :: member :: members, _, h => by
      have hrest := denotesMembers_memberChars (member :: members) (List.cons_ne_nil _ _) h.2
      have hmore := DenotesMembers.more (spellsKey_quoted key) gap_nil gap_nil (denotes_chars value h.1) hrest
      simpa [memberChars] using hmore

end

/-- Compact text is JSON for the value that is written. -/
theorem isText_compact {j : Json} (h : j.Numberless) : IsText j.compact j :=
  ⟨[], j.chars, [], gap_nil, gap_nil, denotes_chars j h, by simp [compact]⟩

end ApiManifest.Json
