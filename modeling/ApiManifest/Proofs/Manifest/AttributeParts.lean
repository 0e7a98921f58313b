import ApiManifest.Proofs.Manifest.KeyFields

/-!
# Attributes, whole and in parts

An attribute is read as a whole, by its name alone, by its type alone, or as an attribute of a key. The readers cut the
text at the same colon and differ in one case: a colon with only blanks after it announces a type to the first reader,
and to the others it stands for no type.
-/

namespace ApiManifest

open Text

variable {cs : List Char} {s : String}

theorem Text.Blank.colon_notMem (h : Blank cs) : ':' ∉ cs := by
  intro hc
  exact absurd (h ':' hc) (by decide)

theorem Text.IsName.colon_notMem (h : IsName cs) : ':' ∉ cs := by
  intro hc
  have := h.toNat hc
  simp at this

namespace FieldType

variable {t : FieldType}

theorem SpellsElement.colon_notMem {name : String} {mark : Bool} (h : SpellsElement cs name mark) : ':' ∉ cs := by
  cases h with
  | nullable hn => exact hn.colon_notMem
  | nonNullable hn hb => simp [hn.colon_notMem, hb.colon_notMem]

theorem SpelledAs.colon_notMem (h : t.SpelledAs cs) : ':' ∉ cs := by
  cases h with
  | single hb ha h => simp [hb.colon_notMem, ha.colon_notMem, h.colon_notMem]
  | list hb ha ho hc h =>
      simp [hb.colon_notMem, ha.colon_notMem, ho.colon_notMem, hc.colon_notMem, h.colon_notMem]

theorem parse_trim (cs : List Char) : parse (String.ofList (trim cs)) = parse (String.ofList cs) := by
  have htrim : trim (trim cs) = trim cs := by
    simpa using trim_append blank_nil blank_nil (tight_trim cs)
  simp only [parse, String.toList_ofList, htrim]

theorem SpelledAs.not_blank (h : t.SpelledAs cs) : ¬ Blank cs := by
  intro hblank
  rw [← String.toList_ofList (l := cs)] at h
  have hread := parse_eq_ok_iff.mpr h
  rw [← parse_trim, trim_eq_nil_iff.mpr hblank] at hread
  cases hread

end FieldType

namespace Attribute

/-- Some colon of the text has only blanks after it. -/
def EndsInColon (cs : List Char) : Prop :=
  ∃ before after, before ++ ':' :: after = cs ∧ Blank after

variable {name type : List Char}

/-! ## The parts -/

theorem namePart_of_colon (hs : name ++ ':' :: type = s.toList) (hname : ':' ∉ name) :
    namePart s = String.ofList (trim name) := by
  rw [namePart, ← hs, splitOnce_append type hname]

theorem namePart_of_notMem (hname : ':' ∉ s.toList) : namePart s = String.ofList (trim s.toList) := by
  rw [namePart, splitOnce_eq_none.mpr hname]

theorem typePart_of_colon (hs : name ++ ':' :: type = s.toList) (hname : ':' ∉ name) (htype : ¬ Blank type)
    (otherwise : String) : typePart s otherwise = String.ofList (trim type) := by
  rw [typePart, ← hs, splitOnce_append type hname]
  exact if_neg (fun h => htype (isEmpty_trim_iff.mp h))

theorem typePart_of_notMem (hname : ':' ∉ s.toList) (otherwise : String) : typePart s otherwise = otherwise := by
  rw [typePart, splitOnce_eq_none.mpr hname]

theorem ofList_trim_eq_empty : String.ofList (trim cs) = "" ↔ (trim cs).isEmpty = true := by
  rw [String.ofList_eq_empty_iff, List.isEmpty_iff]

/-! ## The whole -/

theorem eq_or_colon_mem {before after : List Char} (hname : ':' ∉ name)
    (h : before ++ ':' :: after = name ++ ':' :: type) : type = after ∨ ':' ∈ type := by
  induction name generalizing before with
  | nil =>
      cases before with
      | nil =>
          cases h
          exact .inl rfl
      | cons c before =>
          cases h
          simp
  | cons c name ih =>
      cases before with
      | nil =>
          cases h
          simp at hname
      | cons d before =>
          obtain ⟨-, h⟩ := List.cons.inj h
          exact ih (fun hc => hname (List.mem_cons_of_mem c hc)) h

/-- What follows the first colon is blank or has another colon in it: neither is a type. -/
theorem parse_of_endsInColon (h : EndsInColon s.toList) : parse s = .error .badTypeDefinition := by
  obtain ⟨before, after, hs, hblank⟩ := h
  cases hsplit : splitOnce ':' s.toList with
  | none =>
      have hnone := splitOnce_eq_none.mp hsplit
      simp [← hs] at hnone
  | some parts =>
      obtain ⟨name, type⟩ := parts
      obtain ⟨hname, hcut⟩ := splitOnce_eq_some hsplit
      apply parse_eq_error_iff.mpr
      refine .type hcut hname fun t ht => ?_
      rcases eq_or_colon_mem hname (hs.trans hcut.symm) with rfl | hcolon
      · exact ht.not_blank hblank
      · exact ht.colon_notMem hcolon

theorem parse_eq_parts (h : ¬ EndsInColon s.toList) :
    parse s = FieldType.parse (typePart s FieldType.defaultName) >>= fun t =>
      if namePart s = "" then .error .missingName else .ok { name := namePart s, type := t } := by
  cases hsplit : splitOnce ':' s.toList with
  | none =>
      have hname := splitOnce_eq_none.mp hsplit
      have hdefault : FieldType.parse FieldType.defaultName = .ok default := by decide
      simp only [parse_of_notMem hname, typePart_of_notMem hname, namePart_of_notMem hname, hdefault, ok_bind,
        ofList_trim_eq_empty]
  | some parts =>
      obtain ⟨name, type⟩ := parts
      obtain ⟨hname, hcut⟩ := splitOnce_eq_some hsplit
      have htype : ¬ Blank type := fun hblank => h ⟨name, type, hcut, hblank⟩
      simp only [parse_of_colon hcut hname, typePart_of_colon hcut hname htype, namePart_of_colon hcut hname,
        FieldType.parse_trim, ofList_trim_eq_empty]

theorem keyAttribute_eq_none : KeyAttribute.parse? s = none ↔ namePart s = "" := by
  simp [KeyAttribute.parse?]

/-- Of a text that is an attribute, all readers find the same name, and the type that is found alone is the type of
the whole. A name and a type that are found alone make an attribute, unless some colon of the text has only blanks after
it, which makes it none. A key attribute is found just where there is a name. -/
theorem readers_agree (s : String) :
    (∀ a, parse s = .ok a → namePart s = a.name ∧ FieldType.parse (typePart s "String") = .ok a.type ∧
      ∃ k, KeyAttribute.parse? s = some k ∧ k.name = a.name) ∧
    (∀ t, namePart s ≠ "" → FieldType.parse (typePart s "String") = .ok t →
      (¬ EndsInColon s.toList → parse s = .ok { name := namePart s, type := t }) ∧
      (EndsInColon s.toList → parse s = .error .badTypeDefinition)) ∧
    (KeyAttribute.parse? s = none ↔ namePart s = "") := by
  refine ⟨fun a ha => ?_, fun t hname ht => ⟨fun hcolon => ?_, parse_of_endsInColon⟩, keyAttribute_eq_none⟩
  · have hcolon : ¬ EndsInColon s.toList := by
      intro h
      rw [parse_of_endsInColon h] at ha
      cases ha
    rw [parse_eq_parts hcolon] at ha
    obtain ⟨t, ht, ha⟩ := bind_eq_ok.mp ha
    split at ha
    · cases ha
    · rename_i hname
      cases ha
      exact ⟨rfl, ht, _, if_neg hname, rfl⟩
  · have hread : FieldType.parse (typePart s FieldType.defaultName) = .ok t := ht
    rw [parse_eq_parts hcolon, hread, ok_bind, if_neg hname]

example : parse "id: " = .error .badTypeDefinition ∧ namePart "id: " = "id" ∧ typePart "id: " "String" = "String" := by
  decide

end Attribute

end ApiManifest
