import ApiManifest.Template.Syntax

/-!
# Where a template is cut

The pieces of a text are what stands between its tags and inside of them, when at every point the leftmost
tag is taken, and of those that start there the shortest one.
-/

namespace ApiManifest.Template

def tagChars (inner : List Char) : List Char :=
  '{' :: '{' :: (inner ++ ['}', '}'])

def StartsTag (inner cs : List Char) : Prop :=
  '\n' ∉ inner ∧ tagChars inner <+: cs

/-- A text and its pieces. -/
inductive Cut : List Char → List Piece → Prop where
  | text {cs} (none : ∀ tail inner, tail <:+ cs → ¬ StartsTag inner tail) : Cut cs [.text cs]
  | tag {before inner rest ps} (line : '\n' ∉ inner)
      (leftmost : ∀ tail inner', tail <:+ before ++ (tagChars inner ++ rest) → StartsTag inner' tail →
        tail.length ≤ (tagChars inner ++ rest).length)
      (shortest : ∀ inner', StartsTag inner' (tagChars inner ++ rest) → inner.length ≤ inner'.length)
      (after : Cut rest ps) : Cut (before ++ (tagChars inner ++ rest)) (.text before :: .tag inner :: ps)

/-! ## One tag -/

theorem of_closeTag {cs inner rest : List Char} (h : closeTag cs = some (inner, rest)) :
    cs = inner ++ '}' :: '}' :: rest ∧ '\n' ∉ inner := by
  fun_induction closeTag cs generalizing inner with
  | case1 => cases h
  | case2 cs =>
      cases h
      exact ⟨rfl, List.not_mem_nil⟩
  | case3 cs _ => cases h
  | case4 c cs _ hc ih =>
      obtain ⟨⟨inner', rest'⟩, hclose, he⟩ := Option.map_eq_some_iff.mp h
      cases he
      obtain ⟨hcs, hline⟩ := ih hclose
      exact ⟨by rw [hcs]; rfl, List.not_mem_cons_of_ne_of_not_mem (Ne.symm hc) hline⟩

theorem closeTag_le {inner' rest' : List Char} (h : '\n' ∉ inner') :
    ∃ inner rest, closeTag (inner' ++ '}' :: '}' :: rest') = some (inner, rest) ∧ inner.length ≤ inner'.length := by
  induction inner' with
  | nil => exact ⟨[], rest', rfl, Nat.le_refl _⟩
  | cons c cs ih =>
      rw [List.mem_cons, not_or] at h
      obtain ⟨inner, rest, hclose, hle⟩ := ih h.2
      rw [List.cons_append]
      unfold closeTag
      split
      · rename_i heq
        cases heq
      · exact ⟨[], _, rfl, Nat.zero_le _⟩
      · rename_i heq
        cases heq
        rw [if_neg (Ne.symm h.1), hclose]
        exact ⟨_, _, rfl, Nat.succ_le_succ hle⟩

theorem of_openTag {cs inner rest : List Char} (h : openTag cs = some (inner, rest)) :
    cs = tagChars inner ++ rest ∧ '\n' ∉ inner := by
  unfold openTag at h
  split at h
  · obtain ⟨rfl, hline⟩ := of_closeTag h
    exact ⟨by simp [tagChars], hline⟩
  · cases h

theorem openTag_le {cs inner' : List Char} (h : StartsTag inner' cs) :
    ∃ inner rest, openTag cs = some (inner, rest) ∧ inner.length ≤ inner'.length := by
  obtain ⟨hline, rest', rfl⟩ := h
  have heq : tagChars inner' ++ rest' = '{' :: '{' :: (inner' ++ '}' :: '}' :: rest') := by simp [tagChars]
  rw [heq]
  exact closeTag_le hline

theorem openTag_eq_none {cs : List Char} : openTag cs = none ↔ ∀ inner, ¬ StartsTag inner cs := by
  constructor
  · intro h inner htag
    obtain ⟨_, _, hopen, _⟩ := openTag_le htag
    rw [h] at hopen
    cases hopen
  · intro h
    cases hopen : openTag cs with
    | none => rfl
    | some p =>
        obtain ⟨rfl, hline⟩ := of_openTag hopen
        exact absurd ⟨hline, List.prefix_append _ _⟩ (h p.1)

/-- The tag that is found is the shortest of those that start there. -/
theorem openTag_tagChars {inner rest : List Char} (line : '\n' ∉ inner)
    (shortest : ∀ inner', StartsTag inner' (tagChars inner ++ rest) → inner.length ≤ inner'.length) :
    openTag (tagChars inner ++ rest) = some (inner, rest) := by
  have hstart : StartsTag inner (tagChars inner ++ rest) := ⟨line, List.prefix_append _ _⟩
  obtain ⟨inner', rest', hopen, hle⟩ := openTag_le hstart
  obtain ⟨heq, hline⟩ := of_openTag hopen
  have hge := shortest inner' ⟨hline, heq ▸ List.prefix_append _ _⟩
  simp only [tagChars, List.cons_append, List.cons.injEq, true_and, List.append_assoc] at heq
  obtain ⟨rfl, hrest⟩ := List.append_inj heq (Nat.le_antisymm hge hle)
  cases hrest
  exact hopen

/-! ## All pieces -/

theorem piecesFrom_skip (skip : Nat) (before cs : List Char) :
    piecesFrom skip before cs = piecesFrom 0 before (cs.drop skip) := by
  induction cs generalizing skip with
  | nil => simp [piecesFrom]
  | cons c cs ih =>
      cases skip with
      | zero => rfl
      | succ skip =>
          rw [List.drop_succ_cons, ← ih]
          rfl

theorem piecesFrom_tag {before inner rest cs : List Char} (h : openTag cs = some (inner, rest)) :
    piecesFrom 0 before cs = .text before.reverse :: .tag inner :: piecesFrom 0 [] rest := by
  obtain ⟨rfl, _⟩ := of_openTag h
  simp only [tagChars, List.cons_append] at h ⊢
  rw [piecesFrom, h]
  simp only [piecesFrom_skip (inner.length + 3), List.drop_succ_cons]
  simp

theorem piecesFrom_text {c : Char} {before cs : List Char} (h : openTag (c :: cs) = none) :
    piecesFrom 0 before (c :: cs) = piecesFrom 0 (c :: before) cs := by
  rw [piecesFrom, h]

/-- No tag starts within the first of two texts, when it is followed by the second one. -/
def NoTagWithin (cs rest : List Char) : Prop :=
  ∀ front back, cs = front ++ back → back ≠ [] → openTag (back ++ rest) = none

theorem noTagWithin_nil (rest : List Char) : NoTagWithin [] rest :=
  fun _ _ h hne => absurd (List.append_eq_nil_iff.mp h.symm).2 hne

theorem noTagWithin_cons {c : Char} {cs rest : List Char} :
    NoTagWithin (c :: cs) rest ↔ openTag (c :: (cs ++ rest)) = none ∧ NoTagWithin cs rest := by
  constructor
  · intro h
    exact ⟨h [] (c :: cs) rfl (List.cons_ne_nil _ _), fun front back hcs => h (c :: front) back (congrArg (c :: ·) hcs)⟩
  · rintro ⟨hopen, h⟩ front back hcs hne
    cases front with
    | nil =>
        rw [List.nil_append] at hcs
        subst hcs
        exact hopen
    | cons d front => exact h front back (List.cons.inj hcs).2 hne

theorem piecesFrom_append {before cs rest : List Char} (h : NoTagWithin cs rest) :
    piecesFrom 0 before (cs ++ rest) = piecesFrom 0 (cs.reverse ++ before) rest := by
  induction cs generalizing before with
  | nil => rfl
  | cons c cs ih =>
      obtain ⟨hopen, hcs⟩ := noTagWithin_cons.mp h
      rw [List.cons_append, piecesFrom_text hopen, ih hcs, List.reverse_cons, List.append_assoc]
      rfl

theorem noTagWithin_of_leftmost {before inner rest : List Char}
    (leftmost : ∀ tail inner', tail <:+ before ++ (tagChars inner ++ rest) → StartsTag inner' tail →
      tail.length ≤ (tagChars inner ++ rest).length) :
    NoTagWithin before (tagChars inner ++ rest) := by
  rintro front back rfl hback
  rw [openTag_eq_none]
  intro inner' htag
  have hle := leftmost _ inner' ⟨front, (List.append_assoc _ _ _).symm⟩ htag
  have hpos := List.length_pos_iff.mpr hback
  rw [List.length_append] at hle
  omega

theorem Cut.pieces_eq {cs : List Char} {ps : List Piece} (h : Cut cs ps) : piecesFrom 0 [] cs = ps := by
  induction h with
  | @text cs none =>
      have hno : NoTagWithin cs [] := by
        rintro front back rfl _
        rw [List.append_nil, openTag_eq_none]
        exact fun inner => none back inner ⟨front, rfl⟩
      have hpieces : piecesFrom 0 [] (cs ++ []) = piecesFrom 0 (cs.reverse ++ []) [] := piecesFrom_append hno
      simpa [piecesFrom] using hpieces
  | tag line leftmost shortest _ ih =>
      rw [piecesFrom_append (noTagWithin_of_leftmost leftmost), piecesFrom_tag (openTag_tagChars line shortest), ih]
      simp

theorem exists_first_tag (cs : List Char) :
    NoTagWithin cs [] ∨
      ∃ before inner rest, cs = before ++ (tagChars inner ++ rest) ∧ openTag (tagChars inner ++ rest) = some (inner, rest) ∧
        NoTagWithin before (tagChars inner ++ rest) := by
  induction cs with
  | nil => exact .inl (noTagWithin_nil [])
  | cons c cs ih =>
      cases hopen : openTag (c :: cs) with
      | some p =>
          obtain ⟨heq, _⟩ := of_openTag hopen
          exact .inr ⟨[], p.1, p.2, heq, heq ▸ hopen, noTagWithin_nil _⟩
      | none =>
          rcases ih with h | ⟨before, inner, rest, rfl, htag, h⟩
          · exact .inl (noTagWithin_cons.mpr ⟨by rwa [List.append_nil], h⟩)
          · exact .inr ⟨c :: before, inner, rest, rfl, htag, noTagWithin_cons.mpr ⟨hopen, h⟩⟩

theorem exists_cut (cs : List Char) : ∃ ps, Cut cs ps := by
  rcases exists_first_tag cs with h | ⟨before, inner, rest, rfl, htag, h⟩
  · refine ⟨_, .text fun tail inner ⟨front, hcs⟩ htag => ?_⟩
    have hne : tail ≠ [] := by
      rintro rfl
      exact absurd (List.prefix_nil.mp htag.2) (List.cons_ne_nil _ _)
    have hopen := h front tail hcs.symm hne
    rw [List.append_nil, openTag_eq_none] at hopen
    exact hopen inner htag
  · obtain ⟨ps, hps⟩ := exists_cut rest
    obtain ⟨_, hline⟩ := of_openTag htag
    refine ⟨_, .tag hline (fun tail inner' htail htag' => ?_) (fun inner' htag' => ?_) hps⟩
    · -- a longer tail would start its tag within what stands before
      refine Nat.le_of_not_lt fun hlt => ?_
      obtain ⟨back, rfl⟩ := List.suffix_of_suffix_length_le (List.suffix_append _ _) htail (Nat.le_of_lt hlt)
      obtain ⟨front, hfront⟩ := htail
      rw [← List.append_assoc, List.append_cancel_right_eq] at hfront
      have hne : back ≠ [] := by
        rintro rfl
        exact Nat.lt_irrefl _ hlt
      exact openTag_eq_none.mp (h front back hfront.symm hne) inner' htag'
    · obtain ⟨inner'', rest'', hopen, hle⟩ := openTag_le htag'
      rw [htag] at hopen
      cases hopen
      exact hle
termination_by cs.length
decreasing_by
  subst_vars
  simp only [tagChars, List.length_append, List.length_cons]
  omega

/-- Cutting a text gives its pieces, and no others are there to be had. -/
theorem cut_iff {s : String} {ps : List Piece} : Cut s.toList ps ↔ ps = pieces s := by
  constructor
  · exact fun h => h.pieces_eq.symm
  · rintro rfl
    obtain ⟨ps, hps⟩ := exists_cut s.toList
    rw [pieces, hps.pieces_eq]
    exact hps

end ApiManifest.Template
