import ApiManifest.Proofs.Text.Blank
import ApiManifest.Text.Identifier
import Mathlib.Data.List.Infix

/-!
# Names and paths

The characters of a name, and paths as names joined by dots: no blank stands in either.
-/

namespace ApiManifest.Text

/-! ## Parts of lists -/

section

variable {α : Type} [BEq α]

theorem splitOn_eq (sep : α) (as : List α) : splitOn sep as = List.splitOn sep as := by
  induction as with
  | nil => rfl
  | cons a as ih =>
      rw [splitOn, ih, List.splitOn_cons_eq_if_modifyHead]
      split
      · rfl
      · cases h : List.splitOn sep as with
        | nil => exact absurd h (List.splitOn_ne_nil sep as)
        | cons piece pieces => rfl

variable [LawfulBEq α]

theorem dropFront?_eq_some {part as rest : List α} : dropFront? part as = some rest ↔ part ++ rest = as := by
  induction part generalizing as with
  | nil => simp [dropFront?, eq_comm]
  | cons p part ih =>
      cases as with
      | nil => simp [dropFront?]
      | cons a as => by_cases h : p = a <;> simp [dropFront?, h, ih]

theorem dropLast?_eq_some {a : α} {as rest : List α} : dropLast? a as = some rest ↔ rest ++ [a] = as := by
  rcases as.eq_nil_or_concat with rfl | ⟨front, b, rfl⟩
  · simp [dropLast?]
  · by_cases h : b = a
    · simp [dropLast?, h, eq_comm]
    · simp [dropLast?, h, Ne.symm h]

theorem splitOnce_append {sep : α} {before : List α} (after : List α) (h : sep ∉ before) :
    splitOnce sep (before ++ sep :: after) = some (before, after) := by
  induction before with
  | nil => simp [splitOnce]
  | cons b before ih =>
      rw [List.mem_cons, not_or] at h
      simp [splitOnce, Ne.symm h.1, ih h.2]

theorem splitOnce_eq_some {sep : α} {as before after : List α} (h : splitOnce sep as = some (before, after)) :
    sep ∉ before ∧ before ++ sep :: after = as := by
  induction as generalizing before with
  | nil => cases h
  | cons a as ih =>
      rw [splitOnce] at h
      split at h
      · rename_i ha
        cases h
        exact ⟨List.not_mem_nil, by rw [beq_iff_eq.mp ha]; rfl⟩
      · rename_i ha
        obtain ⟨⟨front, rest⟩, hsplit, he⟩ := Option.map_eq_some_iff.mp h
        cases he
        obtain ⟨hmem, hfront⟩ := ih hsplit
        refine ⟨?_, by rw [List.cons_append, hfront]⟩
        rw [List.mem_cons, not_or]
        exact ⟨fun he => ha (beq_iff_eq.mpr he.symm), hmem⟩

theorem splitOnce_eq_none {sep : α} {as : List α} : splitOnce sep as = none ↔ sep ∉ as := by
  induction as with
  | nil => simp [splitOnce]
  | cons a as ih =>
      rw [List.mem_cons, not_or, ← ih]
      by_cases h : sep = a
      · simp [splitOnce, h]
      · simp [splitOnce, h, Ne.symm h]

theorem hasPart_iff {part as : List α} : hasPart part as = true ↔ part <:+: as := by
  induction as with
  | nil => simp [hasPart]
  | cons a as ih =>
      simp only [hasPart, Bool.or_eq_true, Option.isSome_iff_exists, dropFront?_eq_some, ih, List.infix_cons_iff,
        List.IsPrefix]

end

/-! ## Names -/

def IsLetter (c : Char) : Prop :=
  ('A' ≤ c ∧ c ≤ 'Z') ∨ ('a' ≤ c ∧ c ≤ 'z')

def IsDigit (c : Char) : Prop :=
  '0' ≤ c ∧ c ≤ '9'

/-- A name: a letter or an underscore, and after it any number of these and of digits. -/
def IsName (cs : List Char) : Prop :=
  ∃ c rest, cs = c :: rest ∧ (IsLetter c ∨ c = '_') ∧ ∀ d ∈ rest, IsLetter d ∨ IsDigit d ∨ d = '_'

theorem isUpper_iff {c : Char} : c.isUpper = true ↔ 'A' ≤ c ∧ c ≤ 'Z' :=
  decide_eq_true_iff

theorem isLower_iff {c : Char} : c.isLower = true ↔ 'a' ≤ c ∧ c ≤ 'z' :=
  Bool.and_eq_true_iff.trans (and_congr decide_eq_true_iff decide_eq_true_iff)

theorem isAlpha_iff {c : Char} : c.isAlpha = true ↔ IsLetter c :=
  Bool.or_eq_true_iff.trans (or_congr isUpper_iff isLower_iff)

theorem isDigit_iff {c : Char} : c.isDigit = true ↔ IsDigit c := by
  simp [Char.isDigit, IsDigit, Char.le_def]

theorem isIdentifier_iff {cs : List Char} : isIdentifier cs = true ↔ IsName cs := by
  cases cs with
  | nil => simp [isIdentifier, IsName]
  | cons c cs =>
      simp only [isIdentifier, isIdentifierStart, isIdentifierRest, Char.isAlphanum, Bool.and_eq_true, Bool.or_eq_true,
        List.all_eq_true, isAlpha_iff, isDigit_iff, beq_iff_eq, IsName, List.cons.injEq, or_assoc]
      constructor
      · rintro ⟨hc, hcs⟩
        exact ⟨c, cs, ⟨rfl, rfl⟩, hc, hcs⟩
      · rintro ⟨_, _, ⟨rfl, rfl⟩, hc, hcs⟩
        exact ⟨hc, hcs⟩

theorem IsLetter.toNat {c : Char} (h : IsLetter c) : (65 ≤ c.toNat ∧ c.toNat ≤ 90) ∨ (97 ≤ c.toNat ∧ c.toNat ≤ 122) :=
  h

theorem IsDigit.toNat {c : Char} (h : IsDigit c) : 48 ≤ c.toNat ∧ c.toNat ≤ 57 :=
  h

theorem IsName.toNat {cs : List Char} (h : IsName cs) {c : Char} (hc : c ∈ cs) :
    (48 ≤ c.toNat ∧ c.toNat ≤ 57) ∨ (65 ≤ c.toNat ∧ c.toNat ≤ 90) ∨ c.toNat = 95 ∨ (97 ≤ c.toNat ∧ c.toNat ≤ 122) := by
  obtain ⟨first, rest, rfl, hfirst, hrest⟩ := h
  have hword : IsLetter c ∨ IsDigit c ∨ c = '_' := by
    rcases List.mem_cons.mp hc with rfl | hc
    · exact hfirst.imp_right Or.inr
    · exact hrest c hc
  rcases hword with h | h | rfl
  · have := h.toNat
    omega
  · have := h.toNat
    omega
  · decide

/-! ## Paths -/

def IsPath (cs : List Char) : Prop :=
  ∃ names, names ≠ [] ∧ (∀ n ∈ names, IsName n) ∧ cs = ['.'].intercalate names

theorem IsName.dot_notMem {cs : List Char} (h : IsName cs) : '.' ∉ cs := by
  intro hc
  have := h.toNat hc
  simp at this

theorem IsName.isPath {cs : List Char} (h : IsName cs) : IsPath cs :=
  ⟨[cs], List.cons_ne_nil _ _, by simpa using h, by simp⟩

theorem isDottedIdentifier_iff {cs : List Char} : isDottedIdentifier cs = true ↔ IsPath cs := by
  simp only [isDottedIdentifier, splitOn_eq, List.all_eq_true, isIdentifier_iff]
  constructor
  · intro h
    exact ⟨_, List.splitOn_ne_nil '.' cs, h, (List.intercalate_splitOn '.').symm⟩
  · rintro ⟨names, hne, hnames, rfl⟩
    rwa [List.splitOn_intercalate '.' (fun n hn => (hnames n hn).dot_notMem) hne]

namespace IsPath

variable {cs : List Char}

theorem exists_cons (h : IsPath cs) : ∃ c rest, cs = c :: rest ∧ (IsLetter c ∨ c = '_') := by
  obtain ⟨names, hne, hnames, rfl⟩ := h
  obtain ⟨name, names, rfl⟩ := List.exists_cons_of_ne_nil hne
  obtain ⟨c, rest, rfl, hc, _⟩ := hnames name List.mem_cons_self
  cases names with
  | nil => exact ⟨c, rest, by simp, hc⟩
  | cons n names => exact ⟨c, _, by rw [List.intercalate_cons_cons, List.cons_append, List.cons_append], hc⟩

theorem forall_mem (h : IsPath cs) {p : Char → Prop} (hdot : p '.') (hname : ∀ n, IsName n → ∀ c ∈ n, p c) :
    ∀ c ∈ cs, p c := by
  obtain ⟨names, -, hnames, rfl⟩ := h
  induction names with
  | nil => exact fun _ hc => nomatch hc
  | cons n names ih =>
      have hn := hname n (hnames n List.mem_cons_self)
      have hrest := ih fun n' hn' => hnames n' (List.mem_cons_of_mem _ hn')
      cases names with
      | nil => simpa using hn
      | cons n' names =>
          intro c hc
          rw [List.intercalate_cons_cons, List.mem_append, List.mem_append, List.mem_singleton] at hc
          rcases hc with (hc | rfl) | hc
          · exact hn c hc
          · exact hdot
          · exact hrest c hc

theorem toNat (h : IsPath cs) : ∀ c ∈ cs, 46 ≤ c.toNat ∧ c.toNat ≤ 122 := by
  refine h.forall_mem (by decide) fun n hn c hc => ?_
  have := hn.toNat hc
  omega

theorem not_isBlank (h : IsPath cs) : ∀ c ∈ cs, isBlank c = false := by
  intro c hc
  have := h.toNat c hc
  simp only [isBlank, Bool.or_eq_false_iff, Bool.and_eq_false_iff, decide_eq_false_iff_not, beq_eq_false_iff_ne]
  omega

theorem tight (h : IsPath cs) : Tight cs where
  head := fun c hc => h.not_isBlank c (List.mem_of_mem_head? hc)
  last := fun c hc => h.not_isBlank c (List.mem_of_mem_getLast? hc)

/-- A path after a mark: no blanks stand around both. -/
theorem tight_mark {mark between : List Char} (h : IsPath cs) (hne : mark ≠ [])
    (hm : ∀ c ∈ mark.head?, isBlank c = false) : Tight (mark ++ between ++ cs) where
  head := by
    obtain ⟨m, mark, rfl⟩ := List.exists_cons_of_ne_nil hne
    exact hm
  last := by
    obtain ⟨c, rest, rfl, _⟩ := h.exists_cons
    intro d hd
    refine h.tight.last d ?_
    simpa [List.getLast?_append] using hd

end IsPath

end ApiManifest.Text
