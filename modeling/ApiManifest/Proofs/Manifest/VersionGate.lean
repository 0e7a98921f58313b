import ApiManifest.Proofs.Manifest.VersionLine
import ApiManifest.Proofs.Manifest.VersionMember
import ApiManifest.Proofs.Text.Lines

/-!
# The version that is looked at and the version that is decoded

Before a manifest is decoded, its version is looked for in its lines. The line that decides gives the major number of
the version that is decoded as well, if it has a blank after its colon and is in no quotes. In quotes, or without that
blank, it is text of some other value.
-/

namespace ApiManifest

open Text Yaml

namespace Version

/-! ## The line that decides -/

def laterLines : List Char → List (List Char)
  | [] => []
  | c :: cs => if c = '\n' then cs :: laterLines cs else laterLines cs

def ofFirst? (cs : List Char) : Option (List Char) :=
  ofLine? (trimEnd (cs.takeWhile (· ≠ '\n')))

/-- The text from the line on that decides: the first that gives a version. -/
def line? (cs : List Char) : Option (List Char) :=
  (cs :: laterLines cs).find? fun line => (ofFirst? line).isSome

theorem splitOn_eq (cs : List Char) : splitOn '\n' cs = (cs :: laterLines cs).map (List.takeWhile (· ≠ '\n')) := by
  induction cs with
  | nil => rfl
  | cons c cs ih =>
      rw [splitOn, ih]
      by_cases hc : c = '\n' <;> simp [hc, laterLines]

theorem find?_eq_bind {bytes : List UInt8} {cs : List Char} (h : Utf8.decode? bytes = some cs) :
    find? bytes = (line? cs).bind ofFirst? := by
  have hlines : lines bytes = (cs :: laterLines cs).map fun line => trimEnd (line.takeWhile (· ≠ '\n')) := by
    rw [lines, ← Function.comp_def trimEnd, ← List.map_map, Utf8.map_splitOn h, splitOn_eq, List.map_map]
    rfl
  rw [find?, hlines, List.findSome?_map, findSome?_eq_bind]
  rfl

theorem suffix_of_laterLines {line cs : List Char} (h : line ∈ laterLines cs) : '\n' :: line <:+ cs := by
  induction cs with
  | nil => cases h
  | cons c cs ih =>
      rw [laterLines] at h
      split at h
      · rename_i hc
        rcases List.mem_cons.mp h with rfl | h
        · rw [hc]
        · exact (ih h).trans (List.suffix_cons ..)
      · exact (ih h).trans (List.suffix_cons ..)

theorem toward_of_line? {line cs : List Char} (h : line? cs = some line) : Cursor.Toward line { rest := cs } := by
  rcases List.mem_cons.mp (List.mem_of_find?_eq_some h) with rfl | hlater
  · exact .inl ⟨rfl, rfl⟩
  · exact .inr (suffix_of_laterLines hlater)

/-! ## What the line gives -/

/-- The text begins with a `v` and these decimal digits, and no other follows them. -/
def BeginsWith (digits cs : List Char) : Prop :=
  ∃ back, cs = 'v' :: digits ++ back ∧ back.head?.any isDecimalDigit = false

def IsSupported (text : String) : Prop :=
  ∃ digits, IsMajor supportedMajor digits ∧ BeginsWith digits text.toList

theorem not_isDecimalDigit_of_isBlank {c : Char} (h : isBlank c = true) : isDecimalDigit c = false := by
  have hcodes : ∀ n ∈ List.range' 0x09 5 ++ List.range' 0x2000 11 ++
      [0x20, 0x85, 0xA0, 0x1680, 0x2028, 0x2029, 0x202F, 0x205F, 0x3000],
      isDecimalDigit (Char.ofNat n) = false := by
    decide
  rw [← Char.ofNat_toNat c]
  refine hcodes _ ?_
  simp only [isBlank, Bool.or_eq_true, Bool.and_eq_true, decide_eq_true_eq, beq_iff_eq] at h
  simp only [List.mem_append, List.mem_range'_1, List.mem_cons, List.not_mem_nil, or_false]
  omega

theorem ofFirst?_eq {line version : List Char} (h : ofFirst? line = some version) :
    ∃ blanks back, line = "version:".toList ++ blanks ++ version ++ back ∧ (∀ b ∈ blanks, b = ' ') ∧
      back.head?.all isBlank = true := by
  obtain ⟨⟨blanks, back, hparts, hblanks, hback⟩, -, -⟩ := ofLine?_eq_some.mp h
  obtain ⟨after, hafter, htrim⟩ := exists_trimEnd (line.takeWhile (· ≠ '\n'))
  refine ⟨blanks, back ++ (after ++ line.dropWhile (· ≠ '\n')), ?_, hblanks, ?_⟩
  · calc line = line.takeWhile (· ≠ '\n') ++ line.dropWhile (· ≠ '\n') := List.takeWhile_append_dropWhile.symm
      _ = "version:".toList ++ (blanks ++ (version ++ back)) ++ after ++ line.dropWhile (· ≠ '\n') := by
          rw [htrim, hparts]
      _ = _ := by simp only [List.append_assoc]
  · refine head?_append_all ((Option.all_eq_true _ _).mpr hback) (head?_append_all ?_ ?_)
    · exact (Option.all_eq_true _ _).mpr fun c hc => hafter c (List.mem_of_head? hc)
    · refine head?_dropWhile (fun c hc => ?_) line
      obtain rfl : c = '\n' := by simpa using hc
      decide

theorem BeginsWith.append {digits version back : List Char} (h : BeginsWith digits version)
    (hback : back.head?.all isBlank = true) : BeginsWith digits (version ++ back) := by
  obtain ⟨tail, rfl, htail⟩ := h
  refine ⟨tail ++ back, List.append_assoc .., ?_⟩
  cases tail with
  | cons => exact htail
  | nil =>
      cases back with
      | nil => rfl
      | cons c back => exact not_isDecimalDigit_of_isBlank hback

theorem major?_eq {version : List Char} {n : Nat} (h : major? version = some n) :
    ∃ digits, IsMajor n digits ∧ BeginsWith digits version := by
  obtain ⟨cs, rfl, hdigits, -⟩ := isMajor_of_major? h
  refine ⟨cs.takeWhile isDecimalDigit, hdigits, cs.dropWhile isDecimalDigit, ?_, ?_⟩
  · rw [List.cons_append, List.takeWhile_append_dropWhile]
  · exact not_any_of_all (head?_dropWhile (by simp) cs)

end Version

namespace Manifest

open Version

variable {bytes : List UInt8} {m : Manifest}

theorem checkVersion_eq_ok {bytes : List UInt8} (h : checkVersion bytes = .ok ()) :
    ∃ version, find? bytes = some version ∧ major? version = some supportedMajor := by
  unfold checkVersion at h
  split at h
  · cases h
  · rename_i version hfound
    split at h
    · exact ⟨version, hfound, by assumption⟩
    · cases h

/-- A manifest is accepted only if the line that decides gives a version of the one major number that is understood.
If a blank follows the colon of that line and the line is in no quotes, the version that is decoded begins with the
same digits. -/
theorem parse_version (h : parse bytes = .ok m) :
    ∃ cs line, Utf8.decode? bytes = some cs ∧ line? cs = some line ∧
      ∃ blanks version digits, line = "version:".toList ++ blanks ++ version ∧ (∀ b ∈ blanks, b = ' ') ∧
        IsMajor supportedMajor digits ∧ BeginsWith digits version ∧
        (blanks ≠ [] → ¬ InQuotes cs line → BeginsWith digits m.version.toList) := by
  simp only [parse, bind_eq_ok, mapError_eq_ok] at h
  obtain ⟨⟨⟩, hversion, m', hdecoded, hchecked⟩ := h
  obtain ⟨hdecode, hend⟩ := decodeStream_eq_ok.mp hdecoded
  obtain ⟨cs, hcs⟩ : ∃ cs, Utf8.decode? bytes = some cs := by
    cases hcs : Utf8.decode? bytes with
    | some cs => exact ⟨cs, rfl⟩
    | none =>
        rw [Stream.ofBytes, hcs] at hend
        cases hend
  rw [Stream.ofBytes, hcs] at hdecode hend
  obtain ⟨found, hfound, hmajor⟩ := checkVersion_eq_ok hversion
  rw [find?_eq_bind hcs] at hfound
  obtain ⟨line, hline, hfirst⟩ := Option.bind_eq_some_iff.mp hfound
  obtain ⟨blanks, rest, rfl, hblanks, hrest⟩ := ofFirst?_eq hfirst
  obtain ⟨digits, hdigits, hbegins⟩ := major?_eq hmajor
  refine ⟨cs, _, hcs, hline, blanks, found ++ rest, digits, List.append_assoc .., hblanks, hdigits,
    hbegins.append hrest, fun hne hquotes => ?_⟩
  obtain ⟨back, hback, hstop⟩ := hbegins.append hrest
  -- the line as the scanner meets it: the key, the colon, one blank and whatever follows
  obtain ⟨b, blanks, rfl⟩ := List.exists_cons_of_ne_nil hne
  obtain rfl := hblanks b List.mem_cons_self
  have hversionLine : "version:".toList ++ ' ' :: blanks ++ found ++ rest =
      versionLine (blanks ++ 'v' :: digits ++ back) := by
    rw [List.append_assoc _ found, hback]
    simp [versionLine, versionWord]
  rw [hversionLine] at hline hquotes
  obtain ⟨t, x, tail, ht, hx, htail, hholds⟩ := Stream.holds_versionLine
    (fun b hb => hblanks b (List.mem_cons_of_mem _ hb)) hdigits.isDigit hstop (toward_of_line? hline) hquotes hend
  have hm : m'.version = x := version_eq_of_holds hdecode hholds ht (by rw [hx]; rfl)
  rw [(of_checked_eq_ok hchecked).1, hm]
  exact ⟨tail, hx, htail⟩

def namedFirst : String :=
  "apiNameSuffix: zoo\nversion: v2.1.0\n"

/-- Its version's line is in no quotes, and what is decoded begins with the digits of that line. -/
theorem namedFirst_version :
    ∃ m, parse (Utf8.encode namedFirst) = .ok m ∧ IsSupported m.version := by
  have check : (parse (Utf8.encode namedFirst)).toOption.map (fun _ => true) = some true := by
    decide +kernel
  obtain ⟨m, hm, -⟩ := toOption_map_eq_some.mp check
  obtain ⟨cs, line, hcs, hline, blanks, version, digits, hparts, -, hdigits, ⟨back, hversion, -⟩, hdecoded⟩ :=
    parse_version hm
  obtain rfl := Option.some.inj ((Utf8.decode?_encode namedFirst).symm.trans hcs)
  have hfirst : line? namedFirst.toList = some "version: v2.1.0\n".toList := by
    decide +kernel
  obtain rfl := Option.some.inj (hfirst.symm.trans hline)
  have hfront : namedFirst.toList = "apiNameSuffix: zoo\n".toList ++ "version: v2.1.0\n".toList := by
    decide
  have hquotes : ¬ InQuotes namedFirst.toList "version: v2.1.0\n".toList := by
    rw [hfront]
    exact not_inQuotes (by simp)
  refine ⟨m, hm, digits, hdigits, hdecoded ?_ hquotes⟩
  rintro rfl
  rw [hversion] at hparts
  exact absurd (congrArg (fun cs => cs[8]?) hparts) (by simp)

def quotedVersion : String :=
  "\"version\": v1\napiNameSuffix: \"zoo\nversion: v2\n\"\n"

/-- A manifest of another version, with the text of a version's line, but for its blank, in a scalar of two lines. -/
def unspacedVersion : String :=
  "\x7b\"version\": v1, apiNameSuffix: zoo\nversion:v2\n\x7d\n"

theorem not_isSupported_v1 : ¬ IsSupported "v1" := by
  rintro ⟨digits, hdigits, back, hback, -⟩
  cases digits with
  | nil => exact hdigits.ne_nil rfl
  | cons d digits =>
      obtain ⟨rfl, hrest⟩ : '1' = d ∧ [] = digits ++ back := by simpa using hback
      obtain ⟨rfl, -⟩ := List.append_eq_nil_iff.mp hrest.symm
      exact absurd hdigits.value (by decide)

/-- Both are accepted, and the version that is decoded has not the major number that is understood. -/
theorem otherVersions_accepted :
    (∃ m, parse (Utf8.encode quotedVersion) = .ok m ∧ ¬ IsSupported m.version) ∧
      ∃ m, parse (Utf8.encode unspacedVersion) = .ok m ∧ ¬ IsSupported m.version := by
  have hother {bytes : List UInt8} (check : (parse bytes).toOption.map (·.version) = some "v1") :
      ∃ m, parse bytes = .ok m ∧ ¬ IsSupported m.version := by
    obtain ⟨m, hm, hversion⟩ := toOption_map_eq_some.mp check
    exact ⟨m, hm, hversion ▸ not_isSupported_v1⟩
  exact ⟨hother (by decide +kernel), hother (by decide +kernel)⟩

end Manifest

end ApiManifest
