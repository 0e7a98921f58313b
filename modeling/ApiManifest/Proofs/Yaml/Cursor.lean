import ApiManifest.Yaml.Token
import ApiManifest.Proofs.Lists
import ApiManifest.Proofs.Text.Identifier

/-!
# Places in a stream

What reading does to a place: characters are taken off, and every line feed among them starts a line. Towards a
line that starts with a letter, whatever skips blanks, comments and empty lines comes to its start at most.
-/

namespace ApiManifest.Yaml

namespace Cursor

variable {c c' c'' : Cursor}

/-! ## What is read -/

def Along (c c' : Cursor) : Prop :=
  ∃ taken, c.rest = taken ++ c'.rest ∧ '\n' ∉ taken ∧ c'.line = c.line

/-- From the one place to the other some characters are read, and every line feed among them starts a line. -/
def Reads (c c' : Cursor) : Prop :=
  ∃ taken, c.rest = taken ++ c'.rest ∧ c.line + taken.count '\n' ≤ c'.line

theorem Along.refl (c : Cursor) : c.Along c :=
  ⟨[], rfl, List.not_mem_nil, rfl⟩

theorem Along.trans (h : c.Along c') (h' : c'.Along c'') : c.Along c'' := by
  obtain ⟨taken, hrest, hnone, hline⟩ := h
  obtain ⟨taken', hrest', hnone', hline'⟩ := h'
  refine ⟨taken ++ taken', ?_, ?_, hline'.trans hline⟩
  · rw [hrest, hrest', List.append_assoc]
  · rw [List.mem_append]
    exact not_or.mpr ⟨hnone, hnone'⟩

theorem Along.reads (h : c.Along c') : c.Reads c' := by
  obtain ⟨taken, hrest, hnone, hline⟩ := h
  exact ⟨taken, hrest, by rw [List.count_eq_zero_of_not_mem hnone, hline, Nat.add_zero]⟩

theorem Reads.refl (c : Cursor) : c.Reads c :=
  (Along.refl c).reads

theorem Reads.trans (h : c.Reads c') (h' : c'.Reads c'') : c.Reads c'' := by
  obtain ⟨taken, hrest, hline⟩ := h
  obtain ⟨taken', hrest', hline'⟩ := h'
  refine ⟨taken ++ taken', ?_, ?_⟩
  · rw [hrest, hrest', List.append_assoc]
  · rw [List.count_append]
    omega

theorem along_skip (c : Cursor) (n : Nat) (h : '\n' ∉ c.rest.take n) : c.Along (c.skip n) :=
  ⟨c.rest.take n, (List.take_append_drop n c.rest).symm, h, rfl⟩

theorem along_skip_append {front back : List Char} (h : c.rest = front ++ back) (hnone : '\n' ∉ front) :
    c.Along (c.skip front.length) :=
  c.along_skip _ (by rwa [h, List.take_left])

theorem along_skip_one (h : c.rest.head? ≠ some '\n') : c.Along (c.skip 1) := by
  refine c.along_skip 1 fun hmem => ?_
  cases hrest : c.rest with
  | nil => simp [hrest] at hmem
  | cons ch cs =>
      rw [hrest] at hmem h
      exact h (congrArg some (List.mem_singleton.mp hmem).symm)

theorem along_skip_le (c : Cursor) {p : Char → Bool} (h : p '\n' = false) {n : Nat}
    (hn : n ≤ (c.rest.takeWhile p).length) : c.Along (c.skip n) := by
  refine c.along_skip n fun hmem => ?_
  have hmem' := (List.take_prefix_take_left hn).subset hmem
  rw [take_length_takeWhile] at hmem'
  exact notMem_takeWhile h hmem'

theorem along_skipWhile (c : Cursor) {p : Char → Bool} (h : p '\n' = false) : c.Along (c.skipWhile p) :=
  c.along_skip_le h (Nat.le_refl _)

theorem along_skipLine (c : Cursor) : c.Along c.skipLine :=
  c.along_skipWhile (by decide)

theorem reads_readBreak (c : Cursor) : c.Reads c.readBreak.2 := by
  unfold readBreak
  split
  · rename_i hrest
    exact ⟨['\r', '\n'], hrest, by simp⟩
  · rename_i ch rest _ hrest
    refine ⟨[ch], hrest, ?_⟩
    by_cases hch : ch = '\n' <;> simp [hch]
  · exact .refl c

/-! ## Towards a line -/

/-- A line is still ahead. -/
def Before (line : List Char) (c : Cursor) : Prop :=
  '\n' :: line <:+ c.rest

def Toward (line : List Char) (c : Cursor) : Prop :=
  (c.rest = line ∧ c.column = 0) ∨ c.Before line

variable {line : List Char}

theorem Along.before (h : c.Along c') (hc : c.Before line) : c'.Before line := by
  obtain ⟨taken, hrest, hnone, _⟩ := h
  rw [Before, hrest] at hc
  exact suffix_of_notMem hc hnone

theorem Reads.before (h : c.Reads c') (hc : c'.Before line) : c.Before line := by
  obtain ⟨taken, hrest, _⟩ := h
  rw [Before, hrest]
  exact hc.trans (List.suffix_append _ _)

theorem Reads.line_lt (h : c.Reads c') (hc : c.Before line) (hc' : c'.rest <:+ line) : c.line < c'.line := by
  obtain ⟨taken, hrest, hline⟩ := h
  have hmem : '\n' ∈ taken := by
    by_contra hnone
    rw [Before, hrest] at hc
    exact Nat.not_succ_le_self _ ((suffix_of_notMem hc hnone).trans hc').length_le
  have hcount := List.count_pos_iff.mpr hmem
  omega

theorem Before.readBreak (h : c.Before line) : c.readBreak.2.Toward line := by
  unfold Cursor.readBreak
  have hsuffix : ∀ ch rest, c.rest = ch :: rest → rest = line ∨ '\n' :: line <:+ rest := by
    intro ch rest hrest
    rw [Before, hrest, List.suffix_cons_iff] at h
    exact h.imp_left fun heq => (List.cons.inj heq).2.symm
  split
  · rename_i rest hrest
    rcases hsuffix _ _ hrest with heq | hbefore
    · -- the line does not start with the line feed that ends the break
      have h := h
      rw [Before, hrest, ← heq] at h
      exact absurd (List.cons.inj (h.eq_of_length rfl)).1 (by decide)
    · rcases List.suffix_cons_iff.mp hbefore with heq | hbefore
      · exact .inl ⟨(List.cons.inj heq).2.symm, rfl⟩
      · exact .inr hbefore
  · rename_i ch rest _ hrest
    rcases hsuffix _ _ hrest with heq | hbefore
    · exact .inl ⟨heq, rfl⟩
    · exact .inr hbefore
  · rename_i hrest
    rw [Before, hrest] at h
    simp at h

theorem Toward.skip {p : Char → Bool} {n : Nat} (h : c.Toward line) (hline : line.head?.any p = false)
    (hbreak : p '\n' = false) (hn : n ≤ (c.rest.takeWhile p).length) : (c.skip n).Toward line := by
  rcases h with ⟨hrest, hcolumn⟩ | h
  · have htake : c.rest.takeWhile p = [] := by
      rw [hrest]
      cases line with
      | nil => rfl
      | cons ch cs =>
          have hch : p ch = false := hline
          simp [hch]
    rw [htake, List.length_nil, Nat.le_zero] at hn
    exact hn ▸ .inl ⟨hrest, hcolumn⟩
  · exact .inr ((c.along_skip_le hbreak hn).before h)

theorem Toward.before (h : c.Toward line) (hc : c.rest ≠ line) : c.Before line :=
  h.resolve_left fun hhere => hc hhere.1

/-! ## Up to a line at most -/

/-- What is read are blanks, comments and breaks: no line is passed that starts with a `v`. -/
def Skips (c c' : Cursor) : Prop :=
  c.Reads c' ∧ ∀ more, c.Toward ('v' :: more) → c'.Toward ('v' :: more)

/-- From before a line that starts with a `v`, it is read up to its start at most. -/
def Nears (c c' : Cursor) : Prop :=
  c.Reads c' ∧ ∀ more, c.Before ('v' :: more) → c'.Toward ('v' :: more)

theorem Skips.refl (c : Cursor) : c.Skips c :=
  ⟨.refl c, fun _ => id⟩

theorem Skips.trans (h : c.Skips c') (h' : c'.Skips c'') : c.Skips c'' :=
  ⟨h.1.trans h'.1, fun more => h'.2 more ∘ h.2 more⟩

theorem Skips.nears (h : c.Skips c') : c.Nears c' :=
  ⟨h.1, fun more hc => h.2 more (.inr hc)⟩

theorem Nears.trans (h : c.Nears c') (h' : c'.Skips c'') : c.Nears c'' :=
  ⟨h.1.trans h'.1, fun more => h'.2 more ∘ h.2 more⟩

theorem Along.nears (h : c.Along c') (h' : c'.Nears c'') : c.Nears c'' :=
  ⟨h.reads.trans h'.1, fun more => h'.2 more ∘ h.before⟩

theorem nears_of_along (h : c.Along c') : c.Nears c' :=
  h.nears (Skips.refl c').nears

theorem skips_skip (c : Cursor) {p : Char → Bool} {n : Nat} (hv : p 'v' = false) (hbreak : p '\n' = false)
    (hn : n ≤ (c.rest.takeWhile p).length) : c.Skips (c.skip n) :=
  ⟨(c.along_skip_le hbreak hn).reads, fun _ hc => hc.skip hv hbreak hn⟩

theorem skips_skipWhile (c : Cursor) {p : Char → Bool} (hv : p 'v' = false) (hbreak : p '\n' = false) :
    c.Skips (c.skipWhile p) :=
  c.skips_skip hv hbreak (Nat.le_refl _)

theorem nears_readBreak (c : Cursor) : c.Nears c.readBreak.2 :=
  ⟨reads_readBreak c, fun _ => Before.readBreak⟩

theorem skips_readBreak (h : c.atBreak = true) : c.Skips c.readBreak.2 := by
  refine ⟨reads_readBreak c, fun more hc => (hc.before fun hrest => ?_).readBreak⟩
  rw [atBreak, hrest, List.head?_cons, Option.any_some] at h
  exact absurd h (by decide)

end Cursor

end ApiManifest.Yaml
