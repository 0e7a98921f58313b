import ApiManifest.Manifest.Load
import ApiManifest.Proofs.Lists
import ApiManifest.Proofs.Text.Blank
import ApiManifest.Proofs.Text.Identifier

/-!
# The line that decides on the version

The first line of a manifest that gives a version decides whether the manifest is of a version that is understood. What
stands in the lines before it or after it makes no difference.
-/

namespace ApiManifest

open Text

namespace Version

/-! ## Lines -/

def IsVersionLine (line : List Char) : Prop :=
  ∃ spaces rest, line = "version:".toList ++ (spaces ++ 'v' :: rest) ∧ ∀ c ∈ spaces, c = ' '

/-- The version that such a line gives goes from the `v` up to the next blank. -/
structure Gives (line version : List Char) : Prop where
  parts : ∃ spaces back, line = "version:".toList ++ (spaces ++ (version ++ back)) ∧ (∀ c ∈ spaces, c = ' ') ∧
    ∀ c ∈ back.head?, isBlank c = true
  head : version.head? = some 'v'
  notBlank : ∀ c ∈ version, isBlank c = false

variable {line version : List Char}

theorem gives_takeWhile {spaces rest : List Char} (hspaces : ∀ c ∈ spaces, c = ' ') :
    Gives ("version:".toList ++ (spaces ++ 'v' :: rest)) ('v' :: rest.takeWhile fun c => !isBlank c) where
  parts := by
    refine ⟨spaces, rest.dropWhile fun c => !isBlank c, ?_, hspaces, fun c hc => by simpa using dropWhile_stops hc⟩
    rw [List.cons_append, List.takeWhile_append_dropWhile]
  head := rfl
  notBlank := by
    rw [List.forall_mem_cons]
    exact ⟨by decide, fun c hc => by simpa using List.mem_takeWhile_imp hc⟩

theorem ofLine?_of_gives (h : Gives line version) : ofLine? line = some version := by
  obtain ⟨⟨spaces, back, rfl, hspaces, hback⟩, hhead, hblank⟩ := h
  cases version with
  | nil => cases hhead
  | cons c rest =>
      cases hhead
      have hdrop : dropFront? "version:".toList ("version:".toList ++ (spaces ++ ('v' :: rest ++ back))) =
          some (spaces ++ ('v' :: rest ++ back)) := dropFront?_eq_some.mpr rfl
      have hskip : (spaces ++ ('v' :: rest ++ back)).dropWhile (· = ' ') = 'v' :: (rest ++ back) :=
        dropWhile_append_stop (by simpa using hspaces) (by simp)
      have htake : (rest ++ back).takeWhile (fun c => !isBlank c) = rest :=
        takeWhile_append_stop (fun c hc => by simpa using hblank c (List.mem_cons_of_mem _ hc))
          (fun c hc => by simpa using hback c hc)
      simp only [ofLine?, hdrop, hskip, htake]

theorem ofLine?_eq_some : ofLine? line = some version ↔ Gives line version := by
  refine ⟨fun h => ?_, ofLine?_of_gives⟩
  rw [ofLine?] at h
  split at h
  · cases h
  rename_i rest hdrop
  split at h
  · rename_i cs hrest
    cases h
    rw [← dropFront?_eq_some.mp hdrop, ← List.takeWhile_append_dropWhile (p := fun c => c = ' ') (l := rest), hrest]
    exact gives_takeWhile fun c hc => by simpa using List.mem_takeWhile_imp hc
  · cases h

theorem Gives.unique {version' : List Char} (h : Gives line version) (h' : Gives line version') : version = version' :=
  Option.some.inj ((ofLine?_of_gives h).symm.trans (ofLine?_of_gives h'))

theorem isVersionLine_iff : IsVersionLine line ↔ ∃ version, Gives line version := by
  constructor
  · rintro ⟨spaces, rest, rfl, hspaces⟩
    exact ⟨_, gives_takeWhile hspaces⟩
  · rintro ⟨version, ⟨spaces, back, rfl, hspaces, -⟩, hhead, -⟩
    cases version with
    | nil => cases hhead
    | cons c rest =>
        cases hhead
        exact ⟨spaces, rest ++ back, rfl, hspaces⟩

theorem ofLine?_eq_none : ofLine? line = none ↔ ¬ IsVersionLine line := by
  rw [isVersionLine_iff, Option.eq_none_iff_forall_ne_some, not_exists]
  exact forall_congr' fun version => not_congr ofLine?_eq_some

/-! ## Major numbers -/

structure IsMajor (n : Nat) (digits : List Char) : Prop where
  ne_nil : digits ≠ []
  isDigit : ∀ d ∈ digits, d.isDigit = true
  value : Json.digitsValue digits = n

theorem le_foldl_digits (start : Nat) (digits : List Char) :
    start ≤ digits.foldl (fun n d => n * 10 + (d.toNat - '0'.toNat)) start := by
  induction digits generalizing start with
  | nil => exact Nat.le_refl _
  | cons d digits ih =>
      have hnext : start ≤ start * 10 + (d.toNat - '0'.toNat) := by omega
      exact hnext.trans (ih _)

/-- The bound on the way is one on the value, as further digits make no number smaller. -/
theorem number?_eq_some {digits : List Char} {n : Nat} :
    number? digits = some n ↔
      (∀ d ∈ digits, d.isDigit = true) ∧ Json.digitsValue digits = n ∧ n < UInt64.size := by
  unfold number? Json.digitsValue
  have hstart : 0 < UInt64.size := by decide
  generalize 0 = start at hstart ⊢
  induction digits generalizing start with
  | nil =>
      rw [List.foldlM_nil, Option.pure_def, Option.some_inj]
      constructor
      · rintro rfl
        exact ⟨nofun, rfl, hstart⟩
      · exact fun h => h.2.1
  | cons d digits ih =>
      rw [List.foldlM_cons, List.foldl_cons, List.forall_mem_cons]
      by_cases hd : d.isDigit = true
      · by_cases hnext : start * 10 + (d.toNat - '0'.toNat) < UInt64.size
        · simp only [hd, hnext, decide_true, Bool.and_self, if_true, Option.bind_eq_bind, Option.bind_some, ih _ hnext,
            true_and]
        · have hle := le_foldl_digits (start * 10 + (d.toNat - '0'.toNat)) digits
          simp only [hd, hnext, decide_false, Bool.and_false, Bool.false_eq_true, if_false, Option.bind_eq_bind,
            Option.bind_none, reduceCtorEq, false_iff, not_and]
          omega
      · simp [hd]

/-! ## Versions -/

def IsGroup (group : List Char) : Prop :=
  ∃ digits, group = '.' :: digits ∧ digits ≠ [] ∧ ∀ d ∈ digits, isDecimalDigit d = true

def IsEnd (back : List Char) : Prop :=
  ∀ c ∈ back.head?, c = '-' ∨ c = '+'

/-- The version is a `v` with the digits of its major number, at most two groups of further digits, and no more, or a
part that a sign sets off. -/
def HasMajor (n : Nat) (version : List Char) : Prop :=
  ∃ (digits : List Char) (groups : List (List Char)) (back : List Char),
    version = 'v' :: (digits ++ (groups.flatten ++ back)) ∧ IsMajor n digits ∧ groups.length ≤ 2 ∧
      (∀ group ∈ groups, IsGroup group) ∧ IsEnd back

variable {back group : List Char}

theorem isDecimalDigit_of_isDigit {d : Char} (h : d.isDigit = true) : isDecimalDigit d = true := by
  simp only [Char.isDigit, Bool.and_eq_true, decide_eq_true_eq, UInt32.le_iff_toNat_le] at h
  simp only [isDecimalDigit, decimalDigitRanges, List.any_cons, Bool.or_eq_true, Bool.and_eq_true, decide_eq_true_eq]
  exact .inl h

theorem IsGroup.head (h : IsGroup group) (back : List Char) : (group ++ back).head? = some '.' := by
  obtain ⟨digits, rfl, -⟩ := h
  rfl

theorem IsEnd.notDigit (h : IsEnd back) : ∀ c ∈ back.head?, isDecimalDigit c = false := by
  intro c hc
  rcases h c hc with rfl | rfl <;> decide

theorem IsGroup.notDigit (h : IsGroup group) (back : List Char) :
    ∀ c ∈ (group ++ back).head?, isDecimalDigit c = false := by
  rw [h.head]
  rintro _ ⟨⟩
  decide

theorem skipGroup_end (h : IsEnd back) : skipGroup back = back := by
  unfold skipGroup
  split
  · rename_i rest
    rcases h '.' rfl with h | h <;> cases h
  · rfl

theorem skipGroup_append (hgroup : IsGroup group) (hback : ∀ c ∈ back.head?, isDecimalDigit c = false) :
    skipGroup (group ++ back) = back := by
  obtain ⟨digits, rfl, hne, hdigits⟩ := hgroup
  obtain ⟨d, digits, rfl⟩ := List.exists_cons_of_ne_nil hne
  have hskip := dropWhile_append_stop hdigits hback
  simp only [List.cons_append, skipGroup, List.head?_cons, Option.any_some, hdigits d List.mem_cons_self, if_true]
  exact hskip

theorem exists_skipGroup (cs : List Char) :
    ∃ groups : List (List Char), cs = groups.flatten ++ skipGroup cs ∧ groups.length ≤ 1 ∧
      ∀ group ∈ groups, IsGroup group := by
  unfold skipGroup
  split
  · rename_i rest
    split
    · rename_i hhead
      refine ⟨['.' :: rest.takeWhile isDecimalDigit], ?_, Nat.le_refl _, ?_⟩
      · simp
      · rw [List.forall_mem_singleton]
        refine ⟨_, rfl, ?_, fun d hd => List.mem_takeWhile_imp hd⟩
        cases rest with
        | nil => cases hhead
        | cons d rest => simp_all
    · exact ⟨[], rfl, by simp, nofun⟩
  · exact ⟨[], rfl, by simp, nofun⟩

theorem notDigit_of_groups {groups : List (List Char)} (hgroups : ∀ group ∈ groups, IsGroup group)
    (hback : IsEnd back) : ∀ c ∈ (groups.flatten ++ back).head?, isDecimalDigit c = false := by
  cases groups with
  | nil => exact hback.notDigit
  | cons group groups =>
      rw [List.flatten_cons, List.append_assoc]
      exact (hgroups group List.mem_cons_self).notDigit _

theorem skipGroups {groups : List (List Char)} (hlength : groups.length ≤ 2) (hgroups : ∀ group ∈ groups, IsGroup group)
    (hback : IsEnd back) : skipGroup (skipGroup (groups.flatten ++ back)) = back := by
  match groups with
  | [] =>
      rw [List.flatten_nil, List.nil_append, skipGroup_end hback, skipGroup_end hback]
  | [group] =>
      rw [List.flatten_singleton, skipGroup_append (hgroups group List.mem_cons_self) hback.notDigit,
        skipGroup_end hback]
  | [group, group'] =>
      rw [List.forall_mem_cons, List.forall_mem_singleton] at hgroups
      rw [List.flatten_cons, List.flatten_singleton, List.append_assoc,
        skipGroup_append hgroups.1 (hgroups.2.notDigit back), skipGroup_append hgroups.2 hback.notDigit]
  | _ :: _ :: _ :: _ => simp at hlength

theorem isSuffix_iff (h : '\n' ∉ back) : isSuffix back = true ↔ IsEnd back := by
  cases back with
  | nil => simp [isSuffix, IsEnd]
  | cons c cs =>
      rw [List.mem_cons, not_or] at h
      have hall : ∀ d ∈ cs, d ≠ '\n' := fun d hd he => h.2 (he ▸ hd)
      simpa [isSuffix, IsEnd] using fun _ => hall

theorem major?_of_hasMajor {n : Nat} (h : HasMajor n version) (hline : '\n' ∉ version) (hn : n < UInt64.size) :
    major? version = some n := by
  obtain ⟨digits, groups, back, rfl, hdigits, hlength, hgroups, hback⟩ := h
  have hdecimal : ∀ d ∈ digits, isDecimalDigit d = true := fun d hd => isDecimalDigit_of_isDigit (hdigits.isDigit d hd)
  have hstop := notDigit_of_groups hgroups hback
  have hsuffix : isSuffix back = true := (isSuffix_iff (by simp_all)).mpr hback
  have hnumber : number? digits = some n := number?_eq_some.mpr ⟨hdigits.isDigit, hdigits.value, hn⟩
  simp only [major?, takeWhile_append_stop hdecimal hstop, dropWhile_append_stop hdecimal hstop,
    skipGroups hlength hgroups hback, hsuffix, List.isEmpty_eq_false_iff.mpr hdigits.ne_nil, hnumber, Bool.not_true,
    Bool.or_false, Bool.false_eq_true, if_false]

theorem isMajor_of_major? {n : Nat} (h : major? version = some n) :
    ∃ cs, version = 'v' :: cs ∧ IsMajor n (cs.takeWhile isDecimalDigit) ∧
      isSuffix (skipGroup (skipGroup (cs.dropWhile isDecimalDigit))) = true ∧ n < UInt64.size := by
  unfold major? at h
  split at h
  · rename_i cs
    simp only [Option.ite_none_left_eq_some, Bool.or_eq_true, not_or, Bool.not_eq_true] at h
    obtain ⟨⟨hne, hsuffix⟩, hnumber⟩ := h
    obtain ⟨hdigits, hvalue, hn⟩ := number?_eq_some.mp hnumber
    exact ⟨cs, rfl, ⟨by simpa using hne, hdigits, hvalue⟩, by simpa using hsuffix, hn⟩
  · cases h

theorem major?_eq_some {n : Nat} (hline : '\n' ∉ version) :
    major? version = some n ↔ HasMajor n version ∧ n < UInt64.size := by
  refine ⟨fun h => ?_, fun h => major?_of_hasMajor h.1 hline h.2⟩
  obtain ⟨cs, rfl, hdigits, hsuffix, hn⟩ := isMajor_of_major? h
  obtain ⟨groups₁, hfirst, hlength₁, hgroups₁⟩ := exists_skipGroup (cs.dropWhile isDecimalDigit)
  obtain ⟨groups₂, hsecond, hlength₂, hgroups₂⟩ := exists_skipGroup (skipGroup (cs.dropWhile isDecimalDigit))
  have hcs : cs = cs.takeWhile isDecimalDigit ++
      ((groups₁ ++ groups₂).flatten ++ skipGroup (skipGroup (cs.dropWhile isDecimalDigit))) := by
    rw [List.flatten_append, List.append_assoc, ← hsecond, ← hfirst, List.takeWhile_append_dropWhile]
  refine ⟨⟨_, groups₁ ++ groups₂, _, congrArg ('v' :: ·) hcs, hdigits, ?_, ?_, ?_⟩, hn⟩
  · rw [List.length_append]
    omega
  · exact List.forall_mem_append.mpr ⟨hgroups₁, hgroups₂⟩
  · refine (isSuffix_iff fun hmem => hline ?_).mp hsuffix
    rw [hcs]
    exact List.mem_cons_of_mem _ (List.mem_append_right _ (List.mem_append_right _ hmem))

end Version

/-! ## The check -/

open Version

variable {bytes : List UInt8} {line version : List Char}

theorem Version.find?_eq_none : find? bytes = none ↔ ∀ line ∈ lines bytes, ¬ IsVersionLine line := by
  simp only [find?, List.findSome?_eq_none_iff, ofLine?_eq_none]

theorem Version.find?_of_first {before after : List (List Char)} (hlines : lines bytes = before ++ line :: after)
    (hbefore : ∀ l ∈ before, ¬ IsVersionLine l) (h : Gives line version) : find? bytes = some version := by
  have hnone : before.findSome? ofLine? = none :=
    List.findSome?_eq_none_iff.mpr fun l hl => ofLine?_eq_none.mpr (hbefore l hl)
  rw [find?, hlines, List.findSome?_append, hnone, Option.none_or, List.findSome?_cons, ofLine?_of_gives h]

theorem checkVersion_of_find? (h : find? bytes = some version) : checkVersion bytes =
    if major? version = some supportedMajor then .ok () else .error (.unsupportedVersion (String.ofList version)) := by
  rw [checkVersion, h]

theorem checkVersion_eq_missing : checkVersion bytes = .error .missingVersion ↔ find? bytes = none := by
  cases hfound : find? bytes with
  | none => simp [checkVersion, hfound]
  | some version =>
      rw [checkVersion_of_find? hfound]
      split <;> simp

/-- The version is missing if no line gives one. Otherwise the first line that does decides alone: its version is the
text from the `v` up to the next blank, and it is understood just if its major number is two. -/
theorem checkVersion_decided (bytes : List UInt8) :
    (checkVersion bytes = .error .missingVersion ↔ ∀ line ∈ lines bytes, ¬ IsVersionLine line) ∧
      (∀ line, IsVersionLine line → ∃! version, Gives line version) ∧
      ∀ before line after version, lines bytes = before ++ line :: after → (∀ l ∈ before, ¬ IsVersionLine l) →
        Gives line version →
          (checkVersion bytes = .ok () ↔ HasMajor 2 version) ∧
          (checkVersion bytes = .error (.unsupportedVersion (String.ofList version)) ↔ ¬ HasMajor 2 version) ∧
          ∀ bytes' before' after', lines bytes' = before' ++ line :: after' → (∀ l ∈ before', ¬ IsVersionLine l) →
            checkVersion bytes' = checkVersion bytes := by
  refine ⟨checkVersion_eq_missing.trans find?_eq_none, fun line hline => ?_, ?_⟩
  · obtain ⟨version, hgives⟩ := isVersionLine_iff.mp hline
    exact ⟨version, hgives, fun v hv => hv.unique hgives⟩
  · intro before line after version hlines hbefore hgives
    have hcheck := checkVersion_of_find? (find?_of_first hlines hbefore hgives)
    have hmajor : major? version = some supportedMajor ↔ HasMajor 2 version := by
      have hfeed : '\n' ∉ version := fun hmem => absurd (hgives.notBlank _ hmem) (by decide)
      rw [major?_eq_some hfeed, and_iff_left (by decide), supportedMajor]
    rw [← hmajor, hcheck]
    refine ⟨?_, ?_, ?_⟩
    · by_cases h : major? version = some supportedMajor <;> simp [h]
    · by_cases h : major? version = some supportedMajor <;> simp [h]
    · intro bytes' before' after' hlines' hbefore'
      exact checkVersion_of_find? (find?_of_first hlines' hbefore' hgives)

/-- Zeros may stand in front, but no number of more than 64 bits is read, nor one in digits of another script. -/
example :
    (["v0000000000000000000000002", "v2.\u0663", "v2.0.1-rc.1", "v2+"].all fun v => major? v.toList = some 2) ∧
      ["v18446744073709551618", "v\u0662", "v2.", "v2.0.0.0", "v"].all fun v => major? v.toList = none := by
  decide

end ApiManifest
