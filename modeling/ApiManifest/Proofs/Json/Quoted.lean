import ApiManifest.Json.Printer
import ApiManifest.Json.Reader

/-!
# Quoted texts

The ways in which JSON lets a character stand between quotes. The reader takes each of them for that character, and the
printer writes one of them.
-/

namespace ApiManifest.Json

/-! ## The grammar -/

def HexDigit (c : Char) (n : Nat) : Prop :=
  "0123456789abcdef".toList[n]? = some c ∨ "0123456789ABCDEF".toList[n]? = some c

inductive HexUnit : List Char → Nat → Prop where
  | mk {a b c d : Char} {i j k l : Nat} (ha : HexDigit a i) (hb : HexDigit b j) (hc : HexDigit c k) (hd : HexDigit d l) :
      HexUnit [a, b, c, d] (((i * 16 + j) * 16 + k) * 16 + l)

inductive ShortEscape : Char → Char → Prop where
  | quote : ShortEscape '"' '"'
  | backslash : ShortEscape '\\' '\\'
  | slash : ShortEscape '/' '/'
  | backspace : ShortEscape 'b' '\x08'
  | formFeed : ShortEscape 'f' '\x0c'
  | lineFeed : ShortEscape 'n' '\n'
  | carriageReturn : ShortEscape 'r' '\r'
  | tab : ShortEscape 't' '\t'

/-- The ways to write a character: as it is, by a letter, by its code point, or by the two halves of a surrogate pair. -/
inductive SpellsChar : List Char → Char → Prop where
  | plain {c : Char} (hquote : c ≠ '"') (hbackslash : c ≠ '\\') (hcontrol : 32 ≤ c.toNat) : SpellsChar [c] c
  | short {letter c : Char} (h : ShortEscape letter c) : SpellsChar ['\\', letter] c
  | unit {ds : List Char} {c : Char} (h : HexUnit ds c.toNat) : SpellsChar ('\\' :: 'u' :: ds) c
  | pair {ds ds' : List Char} {c : Char} {high low : Nat} (hhigh : high < 0x400) (hlow : low < 0x400)
      (h : HexUnit ds (0xD800 + high)) (h' : HexUnit ds' (0xDC00 + low)) (hc : c.toNat = 0x10000 + high * 0x400 + low) :
      SpellsChar ('\\' :: 'u' :: (ds ++ '\\' :: 'u' :: ds')) c

inductive SpellsText : List Char → List Char → Prop where
  | nil : SpellsText [] []
  | cons {cs rest text : List Char} {c : Char} (hc : SpellsChar cs c) (h : SpellsText rest text) :
      SpellsText (cs ++ rest) (c :: text)

/-! ## Reading -/

theorem HexDigit.lt {c : Char} {n : Nat} (h : HexDigit c n) : n < 16 := by
  rcases h with h | h
  · exact (List.getElem?_eq_some_iff.mp h).1
  · exact (List.getElem?_eq_some_iff.mp h).1

theorem hexValue_eq_some {c : Char} {n : Nat} (h : HexDigit c n) : hexValue c = some n := by
  have hlower : ∀ n < 16, "0123456789abcdef".toList[n]?.bind hexValue = some n := by decide
  have hupper : ∀ n < 16, "0123456789ABCDEF".toList[n]?.bind hexValue = some n := by decide
  have hn := h.lt
  rcases h with h | h
  · have hvalue := hlower n hn
    rwa [h] at hvalue
  · have hvalue := hupper n hn
    rwa [h] at hvalue

theorem HexUnit.exists_digits {ds : List Char} {u : Nat} (h : HexUnit ds u) :
    ∃ a b c d, ds = [a, b, c, d] ∧ hexValue4 a b c d = some u := by
  cases h with
  | mk ha hb hc hd =>
      refine ⟨_, _, _, _, rfl, ?_⟩
      simp only [hexValue4, hexValue_eq_some ha, hexValue_eq_some hb, hexValue_eq_some hc, hexValue_eq_some hd,
        Option.bind_eq_bind, Option.bind_some, Option.pure_def, Option.some.injEq]
      omega

theorem unescaped_eq_some {letter c : Char} (h : ShortEscape letter c) : letter ≠ 'u' ∧ unescaped letter = some c := by
  cases h <;> decide

/-- The code point of a character is no half of a surrogate pair. -/
theorem joinUnit_toNat (c : Char) : joinUnit none c.toNat = some ([c], none) := by
  have hvalid : c.toNat < 0xD800 ∨ 0xDFFF < c.toNat ∧ c.toNat < 0x110000 := c.valid
  have hhigh : (0xD800 ≤ c.toNat && c.toNat < 0xDC00) = false := by
    simp only [Bool.and_eq_false_iff, decide_eq_false_iff_not]
    omega
  have hlow : (0xDC00 ≤ c.toNat && c.toNat < 0xE000) = false := by
    simp only [Bool.and_eq_false_iff, decide_eq_false_iff_not]
    omega
  simp [joinUnit, hhigh, hlow]

theorem joinUnit_high {high : Nat} (h : high < 0x400) :
    joinUnit none (0xD800 + high) = some ([], some (0xD800 + high)) := by
  simp only [joinUnit]
  rw [if_pos]
  simp
  omega

theorem joinUnit_low {c : Char} {high low : Nat} (hlow : low < 0x400) (hc : c.toNat = 0x10000 + high * 0x400 + low) :
    joinUnit (some (0xD800 + high)) (0xDC00 + low) = some ([c], none) := by
  have hsum : 0x10000 + (0xD800 + high - 0xD800) * 0x400 + (0xDC00 + low - 0xDC00) = c.toNat := by
    omega
  simp only [joinUnit]
  rw [if_pos, hsum, Char.ofNat_toNat]
  simp
  omega

/-- What spells a character is read as that character, before whatever follows. -/
theorem readQuoted_char {cs : List Char} {c : Char} (h : SpellsChar cs c) (rest : List Char) :
    readQuoted none (cs ++ rest) = (readQuoted none rest).map fun read => (c :: read.1, read.2) := by
  have hmap : (readQuoted none rest).map (fun read => (c :: read.1, read.2)) =
      (readQuoted none rest).bind fun read => some (c :: read.1, read.2) := Option.map_eq_bind ..
  rw [hmap]
  cases h with
  | plain hquote hbackslash hcontrol =>
      have hlow : ¬ c.toNat < 32 := by omega
      simp [readQuoted, hbackslash, hlow]
  | short h =>
      obtain ⟨hunit, hletter⟩ := unescaped_eq_some h
      simp [readQuoted, hunit, hletter]
  | unit h =>
      obtain ⟨a, b, d, e, rfl, hvalue⟩ := h.exists_digits
      simp [readQuoted, hvalue, joinUnit_toNat]
  | pair hhigh hlow h h' hc =>
      obtain ⟨a, b, d, e, rfl, hvalue⟩ := h.exists_digits
      obtain ⟨a', b', d', e', rfl, hvalue'⟩ := h'.exists_digits
      simp [readQuoted, hvalue, hvalue', joinUnit_high hhigh, joinUnit_low hlow hc, Option.bind_assoc]

theorem readQuoted_text {inner text : List Char} (h : SpellsText inner text) (rest : List Char) :
    readQuoted none (inner ++ '"' :: rest) = some (text, rest) := by
  induction h with
  | nil => simp [readQuoted]
  | cons hc _ ih => simp [readQuoted_char hc, ih]

/-! ## Writing -/

theorem hexDigit_digit : ∀ n < 16, HexDigit (hexDigit n) n := by
  unfold HexDigit
  decide

theorem hexUnit_control {n : Nat} (h : n < 32) : HexUnit ['0', '0', hexDigit (n / 16), hexDigit (n % 16)] n := by
  have hzero : HexDigit '0' 0 := .inl rfl
  have hunit := HexUnit.mk hzero hzero (hexDigit_digit (n / 16) (by omega)) (hexDigit_digit (n % 16) (by omega))
  have hn : ((0 * 16 + 0) * 16 + n / 16) * 16 + n % 16 = n := by omega
  rwa [hn] at hunit

theorem spellsChar_escaped (c : Char) : SpellsChar (escaped c) c := by
  unfold escaped
  split
  · subst c
    exact .short .quote
  split
  · subst c
    exact .short .backslash
  split
  · subst c
    exact .short .lineFeed
  split
  · subst c
    exact .short .carriageReturn
  split
  · subst c
    exact .short .tab
  split
  · have hc : c = '\x08' := Char.toNat_inj.mp ‹_›
    subst hc
    exact .short .backspace
  split
  · have hc : c = '\x0c' := Char.toNat_inj.mp ‹_›
    subst hc
    exact .short .formFeed
  split
  · exact .unit (hexUnit_control ‹_›)
  · exact .plain ‹_› ‹_› (by omega)

theorem spellsText_escaped (text : List Char) : SpellsText (text.flatMap escaped) text := by
  induction text with
  | nil => exact .nil
  | cons c text ih =>
      rw [List.flatMap_cons]
      exact .cons (spellsChar_escaped c) ih

end ApiManifest.Json
