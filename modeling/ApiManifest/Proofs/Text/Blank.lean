import ApiManifest.Text.Blank
import Mathlib.Data.List.TakeWhile

/-!
# Trimming

What is cut off at the ends is blank, and what is left neither starts nor ends with a blank.
-/

namespace ApiManifest.Text

def Blank (cs : List Char) : Prop :=
  ∀ c ∈ cs, isBlank c = true

structure Tight (cs : List Char) : Prop where
  head : ∀ c ∈ cs.head?, isBlank c = false
  last : ∀ c ∈ cs.getLast?, isBlank c = false

variable {cs before after core : List Char}

theorem tight_enclosed {c d : Char} (hc : isBlank c = false) (hd : isBlank d = false) (cs : List Char) :
    Tight (c :: (cs ++ [d])) where
  head := by
    rintro _ ⟨⟩
    exact hc
  last := by
    rw [← List.cons_append, List.getLast?_concat]
    rintro _ ⟨⟩
    exact hd

theorem blank_nil : Blank [] :=
  fun _ h => nomatch h

theorem Blank.append (hb : Blank before) (ha : Blank after) : Blank (before ++ after) := by
  intro c hc
  rcases List.mem_append.mp hc with hc | hc
  · exact hb c hc
  · exact ha c hc

theorem Blank.reverse (h : Blank cs) : Blank cs.reverse :=
  fun c hc => h c (List.mem_reverse.mp hc)

/-! ## At the start -/

theorem exists_trimStart (cs : List Char) : ∃ before, Blank before ∧ cs = before ++ trimStart cs :=
  ⟨cs.takeWhile isBlank, fun _ hc => List.mem_takeWhile_imp hc, List.takeWhile_append_dropWhile.symm⟩

theorem not_isBlank_of_head?_trimStart {c : Char} (h : c ∈ (trimStart cs).head?) : isBlank c = false := by
  have hne := List.head?_dropWhile_not isBlank cs
  rw [trimStart] at h
  rw [Option.mem_def.mp h] at hne
  exact hne

theorem trimStart_append (hb : Blank before) (hc : ∀ c ∈ core.head?, isBlank c = false) :
    trimStart (before ++ core) = core := by
  rw [trimStart, List.dropWhile_append_of_pos hb]
  cases core with
  | nil => rfl
  | cons c core => simp [hc c rfl]

/-! ## At both ends -/

theorem trimEnd_append (ha : Blank after) (hc : ∀ c ∈ core.getLast?, isBlank c = false) :
    trimEnd (core ++ after) = core := by
  rw [trimEnd, List.reverse_append, trimStart_append ha.reverse (by simpa using hc), List.reverse_reverse]

theorem exists_trimEnd (cs : List Char) : ∃ after, Blank after ∧ cs = trimEnd cs ++ after := by
  obtain ⟨after, ha, hcs⟩ := exists_trimStart cs.reverse
  refine ⟨after.reverse, ha.reverse, ?_⟩
  rw [trimEnd, ← List.reverse_append, ← hcs, List.reverse_reverse]

theorem tight_trim (cs : List Char) : Tight (trim cs) where
  head := by
    intro c hc
    obtain ⟨after, _, h⟩ := exists_trimEnd (trimStart cs)
    have hstart : c ∈ (trimStart cs).head? := by
      rw [h, List.head?_append, ← trim]
      simp [Option.mem_def.mp hc]
    exact not_isBlank_of_head?_trimStart hstart
  last := by
    intro c hc
    rw [trim, trimEnd, List.getLast?_reverse] at hc
    exact not_isBlank_of_head?_trimStart hc

theorem exists_trim (cs : List Char) : ∃ before after, Blank before ∧ Blank after ∧ cs = before ++ trim cs ++ after := by
  obtain ⟨before, hb, hcs⟩ := exists_trimStart cs
  obtain ⟨after, ha, hstart⟩ := exists_trimEnd (trimStart cs)
  refine ⟨before, after, hb, ha, ?_⟩
  rw [trim, List.append_assoc, ← hstart, ← hcs]

theorem trim_append (hb : Blank before) (ha : Blank after) (hc : Tight core) : trim (before ++ core ++ after) = core := by
  cases core with
  | nil =>
      have hall : trimStart (before ++ after) = [] := by
        rw [← List.append_nil (before ++ after)]
        exact trimStart_append (hb.append ha) (fun _ h => nomatch h)
      rw [List.append_nil, trim, hall]
      rfl
  | cons c core =>
      have hstart : trimStart (before ++ (c :: core ++ after)) = c :: core ++ after :=
        trimStart_append hb fun d hd => hc.head d hd
      rw [trim, List.append_assoc, hstart, trimEnd_append ha hc.last]

theorem trim_eq_nil_iff : trim cs = [] ↔ Blank cs := by
  constructor
  · intro h
    obtain ⟨before, after, hb, ha, hcs⟩ := exists_trim cs
    rw [hcs, h, List.append_nil]
    exact hb.append ha
  · intro h
    have htrim : trim (cs ++ [] ++ []) = [] := trim_append h blank_nil ⟨nofun, nofun⟩
    rwa [List.append_nil, List.append_nil] at htrim

theorem isEmpty_trim_iff : (trim cs).isEmpty = true ↔ Blank cs :=
  List.isEmpty_iff.trans trim_eq_nil_iff

/-- A text is trimmed to what is left of it without blanks around, if that has none at its own ends. -/
theorem trim_eq_iff :
    trim cs = core ↔ Tight core ∧ ∃ before after, Blank before ∧ Blank after ∧ cs = before ++ core ++ after := by
  constructor
  · rintro rfl
    exact ⟨tight_trim cs, exists_trim cs⟩
  · rintro ⟨hc, before, after, hb, ha, rfl⟩
    exact trim_append hb ha hc

end ApiManifest.Text
