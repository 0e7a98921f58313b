import ApiManifest.Proofs.Manifest.Fields

/-!
# How a type is written

The ways to write a type, blanks included, against the reader: it accepts these and nothing else, and reads back
what `shorthand` writes. A list of one shorthand is read as the same shorthand in brackets.
-/

namespace ApiManifest

open Text

namespace FieldType

/-! ## The ways to write a type -/

/-- A name, and after it a mark if the type is never null; blanks may stand before the mark. -/
inductive SpellsElement : List Char → String → Bool → Prop where
  | nullable {name : List Char} (hn : IsName name) : SpellsElement name (String.ofList name) false
  | nonNullable {name between : List Char} (hn : IsName name) (hb : Blank between) :
      SpellsElement (name ++ between ++ ['!']) (String.ofList name) true

/-- The type is written like that: an element, or an element in brackets, with blanks around each. -/
inductive SpelledAs : FieldType → List Char → Prop where
  | single {before after cs : List Char} {name : String} {mark : Bool} (hb : Blank before) (ha : Blank after)
      (h : SpellsElement cs name mark) :
      SpelledAs { name, isList := false, nonNullable := mark } (before ++ cs ++ after)
  | list {before after opened closed cs : List Char} {name : String} {mark : Bool} (hb : Blank before)
      (ha : Blank after) (ho : Blank opened) (hc : Blank closed) (h : SpellsElement cs name mark) :
      SpelledAs { name, isList := true, nonNullable := mark } (before ++ '[' :: (opened ++ cs ++ closed ++ [']']) ++ after)

variable {cs : List Char} {name : String} {mark isList : Bool} {t : FieldType} {s : String}

namespace SpellsElement

theorem tight (h : SpellsElement cs name mark) : Tight cs := by
  cases h with
  | nullable hn => exact hn.isPath.tight
  | @nonNullable name between hn hb =>
      have hstart := hn.isPath.tight.head
      obtain ⟨c, rest, rfl, _⟩ := hn
      rw [List.cons_append, List.cons_append]
      exact tight_enclosed (hstart c rfl) (by decide) (rest ++ between)

theorem head?_ne (h : SpellsElement cs name mark) : cs.head? ≠ some '[' := by
  have hstart (word rest : List Char) (hn : IsName word) : (word ++ rest).head? ≠ some '[' := by
    obtain ⟨c, cs, rfl, hc, _⟩ := hn
    rintro he
    cases he
    revert hc
    simp only [IsLetter]
    decide
  cases h with
  | nullable hn => simpa using hstart cs [] hn
  | @nonNullable name between hn _ =>
      rw [List.append_assoc]
      exact hstart name _ hn

end SpellsElement

/-! ## Reading -/

theorem parseElement_eq_ok : parseElement isList cs = .ok t ↔
    ∃ name mark, SpellsElement cs name mark ∧ t = { name, isList, nonNullable := mark } := by
  constructor
  · intro h
    cases hmark : dropLast? '!' cs with
    | none =>
        simp only [parseElement, hmark] at h
        split at h
        · rename_i hn
          cases h
          exact ⟨_, _, .nullable (isIdentifier_iff.mp hn), rfl⟩
        · cases h
    | some rest =>
        simp only [parseElement, hmark] at h
        split at h
        · rename_i hn
          cases h
          obtain ⟨between, hb, hrest⟩ := exists_trimEnd rest
          have hcs : cs = trimEnd rest ++ between ++ ['!'] := by rw [← hrest, dropLast?_eq_some.mp hmark]
          exact ⟨_, _, hcs ▸ .nonNullable (isIdentifier_iff.mp hn) hb, rfl⟩
        · cases h
  · rintro ⟨name, mark, h, rfl⟩
    cases h with
    | nullable hn =>
        have hmark : dropLast? '!' cs = none := by
          rw [Option.eq_none_iff_forall_ne_some]
          intro rest h
          have hmem : '!' ∈ cs := dropLast?_eq_some.mp h ▸ List.mem_concat_self
          have := hn.toNat hmem
          simp at this
        simp only [parseElement, hmark, isIdentifier_iff.mpr hn, if_pos]
    | @nonNullable name between hn hb =>
        have hmark : dropLast? '!' (name ++ between ++ ['!']) = some (name ++ between) := dropLast?_eq_some.mpr rfl
        have htrim : trimEnd (name ++ between) = name := trimEnd_append hb hn.isPath.tight.last
        simp only [parseElement, hmark, htrim, isIdentifier_iff.mpr hn, if_pos]

theorem parseElement_eq_error {e : AttributeError} (h : parseElement isList cs = .error e) : e = .badTypeDefinition := by
  unfold parseElement at h
  split at h
  split at h
  · cases h
  · cases h
    rfl

theorem tight_brackets (cs : List Char) : Tight ('[' :: (cs ++ [']'])) :=
  tight_enclosed (by decide) (by decide) cs

theorem parse_of_ne (h : (trim s.toList).head? ≠ some '[') : parse s = parseElement false (trim s.toList) := by
  unfold parse
  split
  · rename_i hs
    rw [hs] at h
    exact absurd rfl h
  · rfl

theorem parse_of_bracket (h : trim s.toList = '[' :: (cs ++ [']'])) : parse s = parseElement true (trim cs) := by
  have hlast : dropLast? ']' (cs ++ [']']) = some cs := dropLast?_eq_some.mpr rfl
  simp only [parse, h, hlast]

theorem parse_eq_error {e : AttributeError} (h : parse s = .error e) : e = .badTypeDefinition := by
  unfold parse at h
  split at h
  · split at h
    · exact parseElement_eq_error h
    · cases h
      rfl
  · exact parseElement_eq_error h

theorem parse_eq_ok_iff : parse s = .ok t ↔ t.SpelledAs s.toList := by
  constructor
  · intro h
    obtain ⟨before, after, hb, ha, hs⟩ := exists_trim s.toList
    rw [hs]
    by_cases hhead : (trim s.toList).head? = some '['
    · obtain ⟨rest, hrest⟩ := List.head?_eq_some_iff.mp hhead
      simp only [parse, hrest] at h
      split at h
      · rename_i inner hlast
        obtain ⟨name, mark, hcs, rfl⟩ := parseElement_eq_ok.mp h
        obtain ⟨opened, closed, ho, hc, hinner⟩ := exists_trim inner
        rw [hrest, ← dropLast?_eq_some.mp hlast, hinner]
        exact .list hb ha ho hc hcs
      · cases h
    · rw [parse_of_ne hhead] at h
      obtain ⟨name, mark, hcs, rfl⟩ := parseElement_eq_ok.mp h
      exact .single hb ha hcs
  · intro h
    generalize htext : s.toList = text at h
    cases h with
    | single hb ha h =>
        have htrim := htext ▸ trim_append hb ha h.tight
        rw [parse_of_ne (htrim ▸ h.head?_ne), htrim]
        exact parseElement_eq_ok.mpr ⟨_, _, h, rfl⟩
    | @list _ _ opened closed cs _ _ hb ha ho hc h =>
        rw [parse_of_bracket (htext ▸ trim_append hb ha (tight_brackets _)), trim_append ho hc h.tight]
        exact parseElement_eq_ok.mpr ⟨_, _, h, rfl⟩

theorem parse_eq_error_iff : parse s = .error .badTypeDefinition ↔ ∀ t : FieldType, ¬ t.SpelledAs s.toList := by
  simp only [← parse_eq_ok_iff]
  cases h : parse s with
  | ok t => simp
  | error e => simp [parse_eq_error h]

/-! ## Writing -/

theorem spelledAs_shorthand (h : t.Named) : t.SpelledAs t.shorthand.toList := by
  obtain ⟨name, isList, mark⟩ := t
  have hn : IsName name.toList := h
  have helement : SpellsElement (if mark then name ++ "!" else name).toList name mark := by
    have hnullable := SpellsElement.nullable hn
    have hmarked := SpellsElement.nonNullable hn blank_nil
    cases mark with
    | false => simpa using hnullable
    | true => simpa using hmarked
  cases isList with
  | false => simpa [shorthand] using SpelledAs.single blank_nil blank_nil helement
  | true =>
      simpa [shorthand] using SpelledAs.list blank_nil blank_nil blank_nil blank_nil helement

theorem parse_shorthand (h : t.Named) : parse t.shorthand = .ok t :=
  parse_eq_ok_iff.mpr (spelledAs_shorthand h)

/-- A type is read from a text just if it is written like that, and any other text is no type. What is written of a
type whose name is an identifier is read as that type, so that two types that are read are written alike only if they
are the same. -/
theorem parse_exact :
    (∀ s : String, ∀ t : FieldType, parse s = .ok t ↔ t.SpelledAs s.toList) ∧
    (∀ s : String, parse s = .error .badTypeDefinition ↔ ∀ t : FieldType, ¬ t.SpelledAs s.toList) ∧
    (∀ t : FieldType, IsName t.name.toList → parse t.shorthand = .ok t) ∧
    ∀ s s' : String, ∀ t t' : FieldType, parse s = .ok t → parse s' = .ok t' → t.shorthand = t'.shorthand → t = t' := by
  refine ⟨fun s t => parse_eq_ok_iff, fun s => parse_eq_error_iff, fun t h => parse_shorthand h, ?_⟩
  intro s s' t t' ht ht' h
  have hread := parse_shorthand (parse_named ht)
  rw [h, parse_shorthand (parse_named ht')] at hread
  exact (Except.ok.inj hread).symm

/-! ## Lists of one -/

theorem parse_in_brackets (s : String) : parse ("[" ++ s ++ "]") = parseElement true (trim s.toList) := by
  have htext : ("[" ++ s ++ "]").toList = [] ++ '[' :: (s.toList ++ [']']) ++ [] := by simp
  refine parse_of_bracket ?_
  rw [htext, trim_append blank_nil blank_nil (tight_brackets _)]

theorem parseElement_true (cs : List Char) :
    parseElement true cs = (parseElement false cs).map fun t => { t with isList := true } := by
  simp only [parseElement]
  split
  · dsimp only
    split <;> rfl
  · dsimp only
    split <;> rfl

theorem isList_of_parseElement (h : parseElement isList cs = .ok t) : t.isList = isList := by
  obtain ⟨name, mark, _, rfl⟩ := parseElement_eq_ok.mp h
  rfl

theorem isList_of_bracket (hs : (trim s.toList).head? = some '[') (h : parse s = .ok t) : t.isList = true := by
  obtain ⟨rest, hrest⟩ := List.head?_eq_some_iff.mp hs
  simp only [parse, hrest] at h
  split at h
  · exact isList_of_parseElement h
  · cases h

/-- What starts with a bracket is no element, and as a list it is not made a list of lists. -/
theorem ofValue_list (s : String) : ofValue (.sequence [.string s]) = parseElement true (trim s.toList) := by
  rw [ofValue]
  by_cases hhead : (trim s.toList).head? = some '['
  · have hnone : parseElement true (trim s.toList) = .error .badTypeDefinition := by
      cases h : parseElement true (trim s.toList) with
      | ok t =>
          obtain ⟨name, mark, hcs, _⟩ := parseElement_eq_ok.mp h
          exact absurd hhead hcs.head?_ne
      | error e => rw [parseElement_eq_error h]
    rw [hnone]
    cases h : parse s with
    | ok t => rw [ok_bind, if_pos (isList_of_bracket hhead h)]
    | error e => rw [parse_eq_error h, error_bind]
  · rw [parse_of_ne hhead, parseElement_true]
    cases h : parseElement false (trim s.toList) with
    | ok t =>
        rw [ok_bind, isList_of_parseElement h]
        rfl
    | error e => rfl

/-- A list of one text is read as the text in brackets is: as the same list, or both are no type. -/
theorem list_spellings_agree (s : String) :
    ofValue (.sequence [.string s]) = ofValue (.string ("[" ++ s ++ "]")) ∧
      (ofValue (.sequence [.string s]) = .error .badTypeDefinition ∨
        ∃ t, ofValue (.sequence [.string s]) = .ok t ∧ t.isList = true) := by
  have hstring : ofValue (.string ("[" ++ s ++ "]")) = parseElement true (trim s.toList) := parse_in_brackets s
  rw [ofValue_list, hstring]
  refine ⟨rfl, ?_⟩
  cases h : parseElement true (trim s.toList) with
  | ok t => exact .inr ⟨t, rfl, isList_of_parseElement h⟩
  | error e => exact .inl (by rw [parseElement_eq_error h])

end FieldType

end ApiManifest
