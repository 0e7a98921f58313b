import ApiManifest.Proofs.Yaml.Cursor
import ApiManifest.Text.Digit

/-!
# Reading scalars

How far a scalar is read. Towards a line that starts with a letter, a block scalar comes to its start at most; a
plain scalar that goes on with it ends with its first word there, if a colon and a blank follow.
-/

namespace ApiManifest.Yaml

open Cursor

variable {c c' : Cursor} {more : List Char}

theorem skipWhile_eq (c : Cursor) (p : Char → Bool) : c.skip (c.rest.takeWhile p).length = c.skipWhile p :=
  rfl

theorem readBreak_text (h : c.atBreak = true) : c.readBreak.1 ≠ [] ∧ ∀ ch ∈ c.readBreak.1, isBreak ch = true := by
  unfold readBreak
  split
  · simp [isBreak]
  · rename_i ch rest _ hrest
    rw [atBreak, hrest] at h
    dsimp only
    split
    · simpa using h
    · simp [isBreak]
  · rename_i hrest
    simp [atBreak, hrest] at h

/-! ## Gaps -/

namespace Gap

theorem scanBreaks_skips {indent fuel : Nat} {text : List Char} (h : scanBreaks indent fuel c = some (text, c')) :
    c.Skips c' ∧ ∀ ch ∈ text, isBreak ch = true := by
  induction fuel generalizing c text with
  | zero =>
      cases h
      exact ⟨.refl _, nofun⟩
  | succ fuel ih =>
      simp only [scanBreaks, skipWhile_eq, Option.bind_eq_bind, Option.pure_def] at h
      split at h
      · cases h
      have hskip : c.Skips (c.skipWhile isSpaceOrTab) := c.skips_skipWhile (by decide) (by decide)
      cases hbreak : (c.skipWhile isSpaceOrTab).atBreak with
      | false =>
          simp only [hbreak, Bool.not_false, if_true, Option.some.injEq, Prod.mk.injEq] at h
          obtain ⟨rfl, rfl⟩ := h
          exact ⟨hskip, nofun⟩
      | true =>
          simp only [hbreak, Bool.not_true, Bool.false_eq_true, if_false, Option.bind_eq_some_iff, Prod.exists,
            Option.some.injEq, Prod.mk.injEq] at h
          obtain ⟨text', c₁, hrest, rfl, rfl⟩ := h
          obtain ⟨hskips, htext⟩ := ih hrest
          refine ⟨hskip.trans ((skips_readBreak hbreak).trans hskips), ?_⟩
          rw [List.forall_mem_append]
          exact ⟨(readBreak_text hbreak).2, htext⟩

theorem scan_cases {indent fuel : Nat} {g : Gap} (h : scan indent fuel c = some (g, c')) :
    ((c.skipWhile isSpaceOrTab).atBreak = false ∧ g = { blanks := c.rest.takeWhile isSpaceOrTab } ∧
        c' = c.skipWhile isSpaceOrTab) ∨
      ((c.skipWhile isSpaceOrTab).atBreak = true ∧ ∃ more,
        scanBreaks indent fuel (c.skipWhile isSpaceOrTab).readBreak.2 = some (more, c') ∧
          g = { broken := true, first := (c.skipWhile isSpaceOrTab).readBreak.1, more }) := by
  simp only [scan, skipWhile_eq, Option.bind_eq_bind, Option.pure_def] at h
  cases hbreak : (c.skipWhile isSpaceOrTab).atBreak with
  | false =>
      simp only [hbreak, Bool.not_false, if_true, Option.some.injEq, Prod.mk.injEq] at h
      exact .inl ⟨rfl, h.1.symm, h.2.symm⟩
  | true =>
      simp only [hbreak, Bool.not_true, Bool.false_eq_true, if_false, Option.bind_eq_some_iff, Prod.exists,
        Option.some.injEq, Prod.mk.injEq] at h
      obtain ⟨more, _, hmore, rfl, rfl⟩ := h
      exact .inr ⟨rfl, more, hmore, rfl⟩

theorem scan_skips {indent fuel : Nat} {g : Gap} (h : scan indent fuel c = some (g, c')) : c.Skips c' := by
  have hskip : c.Skips (c.skipWhile isSpaceOrTab) := c.skips_skipWhile (by decide) (by decide)
  obtain ⟨-, -, rfl⟩ | ⟨hbreak, more, hmore, -⟩ := scan_cases h
  · exact hskip
  · exact hskip.trans ((skips_readBreak hbreak).trans (scanBreaks_skips hmore).1)

theorem scan_text {indent fuel : Nat} {g : Gap} (h : scan indent fuel c = some (g, c')) :
    (∀ ch ∈ g.text, isGap (some ch) = true) ∧ (c.atGap = true → c.rest ≠ [] → g.text ≠ []) := by
  obtain ⟨hbreak, rfl, rfl⟩ | ⟨hbreak, later, hlater, rfl⟩ := scan_cases h
  · refine ⟨fun ch hch => ?_, fun hgap hrest => ?_⟩
    · simp [isGap, List.mem_takeWhile_imp hch]
    · cases hc : c.rest with
      | nil => exact absurd hc hrest
      | cons ch cs =>
          have hgap : isSpaceOrTab ch = true ∨ isBreak ch = true := by
            rw [atGap, hc, List.head?_cons, isGap, Bool.or_eq_true] at hgap
            exact hgap
          rcases hgap with hblank | hch
          · simp [text, hblank]
          · cases hblank : isSpaceOrTab ch with
            | true => simp [text, hblank]
            | false =>
                have hhere : (c.skipWhile isSpaceOrTab).rest = ch :: cs := by
                  simp [skipWhile, skip, hc, hblank]
                simp [atBreak, hhere, hch] at hbreak
  · obtain ⟨hne, hfirst⟩ := readBreak_text hbreak
    obtain ⟨_, hlater⟩ := scanBreaks_skips hlater
    have hgap : ∀ ch, isBreak ch = true → isGap (some ch) = true := fun ch hch => by simp [isGap, hch]
    simp only [text, if_true]
    split
    · split
      · exact ⟨by simp [isGap, isSpaceOrTab], by simp⟩
      · rename_i hsome
        exact ⟨fun ch hch => hgap ch (hlater ch hch), fun _ _ => by simpa using hsome⟩
    · refine ⟨?_, fun _ _ => by simp [hne]⟩
      rw [List.forall_mem_append]
      exact ⟨fun ch hch => hgap ch (hfirst ch hch), fun ch hch => hgap ch (hlater ch hch)⟩

end Gap

/-! ## Plain scalars -/

theorem plainWord_eq_some {flow : Bool} {cs word : List Char} (h : plainWord flow cs = some word) :
    ∃ rest, cs = word ++ rest ∧ ∀ ch ∈ word, isGap (some ch) = false := by
  induction cs generalizing word with
  | nil =>
      cases h
      exact ⟨[], rfl, nofun⟩
  | cons ch cs ih =>
      rw [plainWord] at h
      split at h
      · cases h
        exact ⟨ch :: cs, rfl, nofun⟩
      rename_i hgap
      split at h
      · cases h
      split at h
      · cases h
        exact ⟨ch :: cs, rfl, nofun⟩
      obtain ⟨word', hword, rfl⟩ := Option.map_eq_some_iff.mp h
      obtain ⟨rest, rfl, hnone⟩ := ih hword
      exact ⟨rest, rfl, List.forall_mem_cons.mpr ⟨by simpa using hgap, hnone⟩⟩

theorem along_word {flow : Bool} {word : List Char} (h : plainWord flow c.rest = some word) :
    c.Along (c.skip word.length) := by
  obtain ⟨rest, hrest, hnone⟩ := plainWord_eq_some h
  exact along_skip_append hrest fun hmem => absurd (hnone _ hmem) (by decide)

def versionWord : List Char := ['v', 'e', 'r', 's', 'i', 'o', 'n']

/-- A line that starts with a version's key and a blank after its colon, and all that follows. -/
def versionLine (more : List Char) : List Char :=
  versionWord ++ ':' :: ' ' :: more

theorem plainWord_versionLine (flow : Bool) (more : List Char) :
    plainWord flow (versionLine more) = some versionWord := by
  cases flow <;> rfl

theorem scanPlain_versionLine (flow : Bool) (indent fuel : Nat) (h : c.rest = versionLine more) :
    scanPlain flow indent (fuel + 1) {} c = some (versionWord, false, c.skip versionWord.length) := by
  have hstart : (c.atDocumentMark || c.startsWith '#') = false := by
    simp [atDocumentMark, atMark, startsWith, peek?, h, versionLine, versionWord, Text.dropFront?]
  have hnext : (c.skip versionWord.length).rest = ':' :: ' ' :: more := by
    rw [skip, h, versionLine, List.drop_left]
  have hgap : (c.skip versionWord.length).atGap = false := by
    simp [atGap, hnext, isGap, isSpaceOrTab, isBreak]
  have hword : versionWord ≠ [] := List.cons_ne_nil _ _
  simp [scanPlain, hstart, h, plainWord_versionLine, hgap, hword, Gap.text]

/-- A plain scalar ends before a version's line, or it ends with the key there. -/
theorem scanPlain_reads {flow broken : Bool} {indent fuel : Nat} {g : Gap} {text : List Char}
    (h : scanPlain flow indent fuel g c = some (text, broken, c')) :
    c.Reads c' ∧ ∀ more, c.Toward (versionLine more) → c'.Toward (versionLine more) ∨
      (versionWord <:+ text ∧ c'.rest = ':' :: ' ' :: more ∧ broken = false) := by
  induction fuel generalizing g c text with
  | zero =>
      cases h
      exact ⟨.refl _, fun _ => .inl⟩
  | succ fuel ih =>
      simp only [scanPlain, Option.bind_eq_bind, Option.pure_def] at h
      split at h
      · cases h
        exact ⟨.refl _, fun _ => .inl⟩
      obtain ⟨word, hword, h⟩ := Option.bind_eq_some_iff.mp h
      have hskip := along_word hword
      -- at the line the word is the key, after which there is no gap; before it, the word keeps to its own line
      have hhere : ∀ more, c.rest = versionLine more →
          word = versionWord ∧ (c.skip word.length).rest = ':' :: ' ' :: more := by
        intro more hrest
        rw [hrest, plainWord_versionLine] at hword
        cases hword
        exact ⟨rfl, by rw [skip, hrest]; rfl⟩
      split at h
      · cases h
        exact ⟨.refl _, fun _ => .inl⟩
      split at h
      · cases h
        refine ⟨hskip.reads, fun more hc => ?_⟩
        by_cases hrest : c.rest = versionLine more
        · obtain ⟨rfl, hnext⟩ := hhere more hrest
          exact .inr ⟨List.suffix_append _ _, hnext, rfl⟩
        · exact .inl (.inr (hskip.before (hc.before hrest)))
      · rename_i hgap
        simp only [Bool.or_eq_true, Bool.not_eq_true', not_or, Bool.not_eq_false, List.isEmpty_iff] at hgap
        obtain ⟨⟨g', c₁⟩, hscan, h⟩ := Option.bind_eq_some_iff.mp h
        have hskips := Gap.scan_skips hscan
        have htoward (more : List Char) (hc : c.Toward (versionLine more)) : c₁.Toward (versionLine more) := by
          refine hskips.2 _ (.inr (hskip.before (hc.before fun hrest => ?_)))
          rw [atGap, (hhere more hrest).2] at hgap
          simp [isGap, isSpaceOrTab, isBreak] at hgap
        split at h
        · cases h
          exact ⟨hskip.reads.trans hskips.1, fun more hc => .inl (htoward more hc)⟩
        · obtain ⟨⟨text', broken', c₂⟩, hmore, h⟩ := Option.bind_eq_some_iff.mp h
          cases h
          obtain ⟨hreads, hends⟩ := ih hmore
          refine ⟨(hskip.reads.trans hskips.1).trans hreads, fun more hc => ?_⟩
          refine (hends more (htoward more hc)).imp_right fun hkey => ⟨hkey.1.trans (List.suffix_append _ _), hkey.2⟩

theorem scanPlain_text {flow broken : Bool} {indent fuel : Nat} {g : Gap} {text : List Char}
    (h : scanPlain flow indent fuel g c = some (text, broken, c')) : text = [] ∨ g.text <+: text := by
  cases fuel with
  | zero =>
      cases h
      exact .inl rfl
  | succ fuel =>
      simp only [scanPlain, Option.bind_eq_bind, Option.pure_def] at h
      split at h
      · cases h
        exact .inl rfl
      obtain ⟨word, _, h⟩ := Option.bind_eq_some_iff.mp h
      split at h
      · cases h
        exact .inl rfl
      split at h
      · cases h
        exact .inr (List.prefix_append _ _)
      obtain ⟨⟨g', c₁⟩, _, h⟩ := Option.bind_eq_some_iff.mp h
      split at h
      · cases h
        exact .inr (List.prefix_append _ _)
      · obtain ⟨⟨text', broken', c₂⟩, _, h⟩ := Option.bind_eq_some_iff.mp h
        cases h
        exact .inr ((List.prefix_append _ _).trans (List.prefix_append _ _))

theorem of_isWordChar {ch : Char} (h : isWordChar ch = true) :
    isGap (some ch) = false ∧ ch ≠ ':' ∧ isFlowIndicator ch = false := by
  have hne : ∀ d, isWordChar d = false → ch ≠ d := fun d hd he => by simp [he ▸ h] at hd
  have hcode : ∀ n, isWordChar (Char.ofNat n) = false → ch.toNat ≠ n := fun n hn he =>
    hne _ hn (by rw [← he, Char.ofNat_toNat])
  simp [isGap, isSpaceOrTab, isBreak, isFlowIndicator, hne ' ' (by decide), hne '\t' (by decide), hne '\n' (by decide),
    hne '\r' (by decide), hcode 0x85 (by decide), hcode 0x2028 (by decide), hcode 0x2029 (by decide),
    hne ':' (by decide), hne ',' (by decide), hne '[' (by decide), hne ']' (by decide), hne '\x7b' (by decide),
    hne '\x7d' (by decide)]

theorem plainWord_append {flow : Bool} {front cs : List Char} (h : ∀ ch ∈ front, isWordChar ch = true) :
    plainWord flow (front ++ cs) = (plainWord flow cs).map (front ++ ·) := by
  induction front with
  | nil => simp
  | cons ch front ih =>
      obtain ⟨hgap, hcolon, hflow⟩ := of_isWordChar (h ch List.mem_cons_self)
      rw [List.cons_append, plainWord, ih fun d hd => h d (List.mem_cons_of_mem _ hd)]
      simp [hgap, hcolon, hflow, Function.comp_def]

theorem not_isDecimalDigit_of_isGap {ch : Char} (h : isGap (some ch) = true) : Text.isDecimalDigit ch = false := by
  have hcode : ∀ n, ch.toNat = n → Text.isDecimalDigit (Char.ofNat n) = false → Text.isDecimalDigit ch = false :=
    fun n hn hd => by rwa [← Char.ofNat_toNat ch, hn]
  simp only [isGap, isSpaceOrTab, isBreak, Bool.or_eq_true, decide_eq_true_eq] at h
  rcases h with (rfl | rfl) | (((rfl | rfl) | h) | h) | h
  · decide
  · decide
  · decide
  · decide
  · exact hcode _ h (by decide)
  · exact hcode _ h (by decide)
  · exact hcode _ h (by decide)

/-- A plain scalar that starts with a letter and digits starts with all of them, and after the last digit no other
follows. -/
theorem scanPlain_digits {flow broken : Bool} {indent fuel : Nat} {text digits back : List Char}
    (hrest : c.rest = 'v' :: digits ++ back) (hdigits : ∀ d ∈ digits, d.isDigit = true)
    (hback : back.head?.any Text.isDecimalDigit = false)
    (h : scanPlain flow indent (fuel + 1) {} c = some (text, broken, c')) :
    ∃ tail, text = 'v' :: digits ++ tail ∧ tail.head?.any Text.isDecimalDigit = false := by
  have hstart : (c.atDocumentMark || c.startsWith '#') = false := by
    simp [atDocumentMark, atMark, startsWith, peek?, hrest, Text.dropFront?]
  have hword : ∀ ch ∈ 'v' :: digits, isWordChar ch = true := by
    rw [List.forall_mem_cons]
    exact ⟨by decide, fun d hd => by simp [isWordChar, Char.isAlphanum, hdigits d hd]⟩
  simp only [scanPlain, hstart, Bool.false_eq_true, if_false, hrest, plainWord_append hword, Option.bind_eq_bind,
    Option.pure_def] at h
  obtain ⟨_, hback', hnext⟩ := Option.bind_eq_some_iff.mp h
  obtain ⟨word, hplain, rfl⟩ := Option.map_eq_some_iff.mp hback'
  obtain ⟨rest, rfl, _⟩ := plainWord_eq_some hplain
  -- what is added to the first word starts with a gap
  obtain ⟨more, rfl, hmore⟩ : ∃ more, text = 'v' :: digits ++ (word ++ more) ∧
      more.head?.any Text.isDecimalDigit = false := by
    split at hnext
    · rename_i hempty
      simp at hempty
    split at hnext
    · cases hnext
      exact ⟨[], by simp [Gap.text], rfl⟩
    rename_i hgap
    simp only [Bool.or_eq_true, Bool.not_eq_true', not_or, Bool.not_eq_false, List.isEmpty_iff] at hgap
    obtain ⟨⟨g, c₁⟩, hscan, hnext⟩ := Option.bind_eq_some_iff.mp hnext
    split at hnext
    · cases hnext
      exact ⟨[], by simp [Gap.text], rfl⟩
    obtain ⟨⟨more, broken', c₂⟩, hrestOf, hnext⟩ := Option.bind_eq_some_iff.mp hnext
    cases hnext
    refine ⟨more, by simp [Gap.text], ?_⟩
    obtain ⟨hgaps, hne⟩ := Gap.scan_text hscan
    obtain ⟨ch, gap, htext⟩ := List.exists_cons_of_ne_nil (hne hgap.1 hgap.2)
    rcases scanPlain_text hrestOf with rfl | ⟨later, rfl⟩
    · rfl
    · simp only [htext, List.cons_append, List.head?_cons, Option.any_some]
      exact not_isDecimalDigit_of_isGap (hgaps ch (htext ▸ List.mem_cons_self))
  refine ⟨word ++ more, rfl, ?_⟩
  cases word with
  | nil => exact hmore
  | cons d ds => exact hback

/-! ## Quoted scalars -/

theorem singleQuotedWord_line (cs : List Char) : '\n' ∉ cs.take (singleQuotedWord cs).2 := by
  fun_induction singleQuotedWord cs with
  | case1 cs word taken hword ih => simpa [hword] using ih
  | case2 c cs _ h => simp
  | case3 c cs _ h word taken hword ih =>
      have hc : '\n' ≠ c := by
        rintro rfl
        exact h (by decide)
      simpa [hword, hc] using ih
  | case4 => simp

theorem hexValue_of_foldlM {n r : Nat} {ds : List Char}
    (h : ds.foldlM (fun n d => (Json.hexValue d).map (n * 16 + ·)) n = some r) : '\n' ∉ ds := by
  induction ds generalizing n with
  | nil => simp
  | cons d ds ih =>
      simp only [List.foldlM_cons, Option.bind_eq_bind, Option.bind_eq_some_iff, Option.map_eq_some_iff] at h
      obtain ⟨_, ⟨v, hv, _⟩, h⟩ := h
      refine List.not_mem_cons_of_ne_of_not_mem ?_ (ih h)
      rintro rfl
      have hnone : Json.hexValue '\n' = none := by decide
      rw [hnone] at hv
      cases hv

theorem hexChar_line {ds : List Char} {c : Char} (h : hexChar ds = some c) : '\n' ∉ ds := by
  simp only [hexChar, Option.bind_eq_bind, Option.bind_eq_some_iff] at h
  obtain ⟨_, h, _⟩ := h
  exact hexValue_of_foldlM h

theorem cons_line {c : Char} (front : List Char) {cs : List Char} {w : QuotedWord} (hfront : '\n' ∉ front)
    (hcs : '\n' ∉ cs.take w.taken) : '\n' ∉ (front ++ cs).take (w.cons c front.length).taken := by
  rw [QuotedWord.cons, Nat.add_comm, List.take_length_add_append, List.mem_append]
  exact not_or.mpr ⟨hfront, hcs⟩

theorem doubleQuotedWord_line {cs : List Char} {w : QuotedWord} (h : doubleQuotedWord cs = some w) :
    '\n' ∉ cs.take w.taken := by
  fun_induction doubleQuotedWord cs generalizing w with
  | case1 a b cs ih =>
      simp only [Option.bind_eq_bind, Option.bind_eq_some_iff, Option.pure_def, Option.some.injEq] at h
      obtain ⟨c, hhex, w', hw', rfl⟩ := h
      exact cons_line ['\\', 'x', a, b] (by simpa using hexChar_line hhex) (ih hw')
  | case2 a b c d cs ih =>
      simp only [Option.bind_eq_bind, Option.bind_eq_some_iff, Option.pure_def, Option.some.injEq] at h
      obtain ⟨ch, hhex, w', hw', rfl⟩ := h
      exact cons_line ['\\', 'u', a, b, c, d] (by simpa using hexChar_line hhex) (ih hw')
  | case3 a b c d e f g k cs ih =>
      simp only [Option.bind_eq_bind, Option.bind_eq_some_iff, Option.pure_def, Option.some.injEq] at h
      obtain ⟨ch, hhex, w', hw', rfl⟩ := h
      exact cons_line ['\\', 'U', a, b, c, d, e, f, g, k] (by simpa using hexChar_line hhex) (ih hw')
  | case4 e cs _ _ _ hbreak =>
      cases h
      simp
  | case5 e cs _ _ _ hbreak ih =>
      simp only [Option.bind_eq_bind, Option.bind_eq_some_iff, Option.pure_def, Option.some.injEq] at h
      obtain ⟨ch, _, w', hw', rfl⟩ := h
      have he : '\n' ≠ e := by
        rintro rfl
        exact hbreak (by decide)
      exact cons_line ['\\', e] (by simp [he]) (ih hw')
  | case6 => cases h
  | case7 c cs =>
      cases h
      simp
  | case8 c cs _ _ _ _ _ hgap ih =>
      simp only [Option.bind_eq_bind, Option.bind_eq_some_iff, Option.pure_def, Option.some.injEq] at h
      obtain ⟨w', hw', rfl⟩ := h
      have hc : '\n' ≠ c := by
        rintro rfl
        exact hgap (by decide)
      exact cons_line [c] (by simp [hc]) (ih hw')
  | case9 =>
      cases h
      simp

theorem scanQuoted_reads {single : Bool} {fuel : Nat} {text : List Char}
    (h : scanQuoted single fuel c = some (text, c')) : c.Reads c' := by
  induction fuel generalizing c text with
  | zero => cases h
  | succ fuel ih =>
      simp only [scanQuoted, Option.bind_eq_bind, Option.pure_def] at h
      split at h
      · cases h
      -- the word ends on its line, whichever quotes are around it
      obtain ⟨w, quote, hline, hquote, h⟩ : ∃ (w : QuotedWord) (quote : Char),
          '\n' ∉ c.rest.take w.taken ∧ quote ≠ '\n' ∧
          (if (!w.continued && (c.skip w.taken).startsWith quote) = true then
            some (w.word, (c.skip w.taken).skip 1)
          else
            (if w.continued = true then
              (Gap.scanBreaks 0 fuel (c.skip w.taken).readBreak.snd).bind fun b =>
                some ({ broken := true, more := b.fst }, b.snd)
            else Gap.scan 0 fuel (c.skip w.taken)).bind fun g =>
              (scanQuoted single fuel g.snd).bind fun more =>
                some (w.word ++ g.fst.text ++ more.fst, more.snd)) = some (text, c') := by
        cases single with
        | true =>
            simp only [if_true, Option.bind_some] at h
            exact ⟨{ word := (singleQuotedWord c.rest).1, taken := (singleQuotedWord c.rest).2 }, _,
              singleQuotedWord_line c.rest, by decide, h⟩
        | false =>
            obtain ⟨w, hword, h⟩ := Option.bind_eq_some_iff.mp h
            exact ⟨w, _, doubleQuotedWord_line hword, by decide, h⟩
      have hskip := c.along_skip _ hline
      split at h
      · rename_i hclose
        cases h
        refine (hskip.trans (along_skip_one fun hn => ?_)).reads
        rw [Bool.and_eq_true, startsWith, peek?, ← List.head?_eq_getElem?, hn, beq_iff_eq, Option.some.injEq] at hclose
        exact hquote hclose.2.symm
      · obtain ⟨⟨g, c₁⟩, hgap, h⟩ := Option.bind_eq_some_iff.mp h
        obtain ⟨⟨text', c₂⟩, hmore, h⟩ := Option.bind_eq_some_iff.mp h
        cases h
        refine (hskip.reads.trans ?_).trans (ih hmore)
        split at hgap
        · obtain ⟨⟨breaks, c₃⟩, hbreaks, hgap⟩ := Option.bind_eq_some_iff.mp hgap
          cases hgap
          exact (reads_readBreak _).trans (Gap.scanBreaks_skips hbreaks).1.1
        · exact (Gap.scan_skips hgap).1

/-! ## Block scalars -/

theorem blockHeader_line {cs : List Char} {header : BlockHeader} {taken : Nat}
    (h : BlockHeader.scan cs = some (header, taken)) : '\n' ∉ cs.take taken := by
  have hsign : ∀ c : Char, (c = '+' || c = '-') = true ∨ c.isDigit = true → '\n' ≠ c := by
    rintro c hc rfl
    exact absurd hc (by decide)
  rcases cs with _ | ⟨c, _ | ⟨d, cs⟩⟩
  · simp
  · simp only [BlockHeader.scan, List.head?_cons, List.tail_cons, List.head?_nil] at h
    split at h
    · cases h
      simp [hsign c (.inl ‹_›)]
    split at h
    · obtain ⟨n, _, hn⟩ := Option.map_eq_some_iff.mp h
      cases hn
      simp [hsign c (.inr ‹_›)]
    · cases h
      simp
  · simp only [BlockHeader.scan, List.head?_cons, List.tail_cons] at h
    split at h
    · have hc := hsign c (.inl ‹_›)
      split at h
      · obtain ⟨n, _, hn⟩ := Option.map_eq_some_iff.mp h
        cases hn
        simp [hc, hsign d (.inr ‹_›)]
      · cases h
        simp [hc]
    split at h
    · have hc := hsign c (.inr ‹_›)
      obtain ⟨n, _, hn⟩ := Option.map_eq_some_iff.mp h
      split at hn
      · cases hn
        simp [hc, hsign d (.inl ‹_›)]
      · cases hn
        simp [hc]
    · cases h
      simp

theorem along_comment (c : Cursor) : c.Along (if c.startsWith '#' = true then c.skipLine else c) := by
  split
  · exact c.along_skipLine
  · exact .refl c

theorem scanEmptyLines_skips {indent fuel widest : Nat} {text : List Char}
    (h : scanEmptyLines indent fuel c = some (text, widest, c')) : c.Skips c' := by
  induction fuel generalizing c text widest with
  | zero =>
      cases h
      exact .refl _
  | succ fuel ih =>
      simp only [scanEmptyLines, Option.bind_eq_bind, Option.pure_def] at h
      have hn : (if indent = 0 then (c.rest.takeWhile (· = ' ')).length
          else min (c.rest.takeWhile (· = ' ')).length (indent - c.column)) ≤ (c.rest.takeWhile (· = ' ')).length := by
        split
        · exact Nat.le_refl _
        · exact Nat.min_le_left _ _
      generalize (if indent = 0 then (c.rest.takeWhile (· = ' ')).length
          else min (c.rest.takeWhile (· = ' ')).length (indent - c.column)) = n at h hn
      have hskip : c.Skips (c.skip n) := c.skips_skip (by decide) (by decide) hn
      split at h
      · cases h
      split at h
      · rename_i hbreak
        obtain ⟨⟨text', widest', c₁⟩, hmore, h⟩ := Option.bind_eq_some_iff.mp h
        cases h
        exact hskip.trans ((skips_readBreak hbreak).trans (ih hmore))
      · cases h
        exact hskip

theorem scanBlockLines_skips {folded : Bool} {indent fuel : Nat} {e e' : LineEnd} {text : List Char}
    (hindent : indent ≠ 0) (h : scanBlockLines folded indent fuel e c = some (text, e', c')) : c.Skips c' := by
  induction fuel generalizing c text e with
  | zero =>
      cases h
      exact .refl _
  | succ fuel ih =>
      simp only [scanBlockLines, Option.bind_eq_bind, Option.pure_def] at h
      split at h
      · cases h
        exact .refl _
      rename_i hcolumn
      simp only [ne_eq, Bool.or_eq_true, decide_eq_true_eq, not_or, Decidable.not_not] at hcolumn
      obtain ⟨⟨_, _, c₁⟩, hempty, h⟩ := Option.bind_eq_some_iff.mp h
      obtain ⟨⟨text', e₂, c₂⟩, hmore, h⟩ := Option.bind_eq_some_iff.mp h
      cases h
      have hnears := c.along_skipLine.nears ((nears_readBreak _).trans ((scanEmptyLines_skips hempty).trans (ih hmore)))
      refine ⟨hnears.1, fun more hc => hnears.2 more (hc.before fun hrest => ?_)⟩
      -- the line is not indented, and those of the scalar are
      rcases hc with ⟨_, hzero⟩ | hc
      · exact hindent (hcolumn.1.symm.trans hzero)
      · rw [Before, hrest] at hc
        exact Nat.not_succ_le_self _ hc.length_le

theorem ne_zero_of_widened (given n : Nat) : (if given = 0 then max n 1 else given) ≠ 0 := by
  split <;> omega

theorem scanBlock_nears {folded : Bool} {outer : Int} {fuel : Nat} {text : List Char}
    (h : scanBlock folded outer fuel c = some (text, c')) : c.Nears c' := by
  simp only [scanBlock, Option.bind_eq_bind, Option.pure_def] at h
  obtain ⟨⟨header, taken⟩, hheader, h⟩ := Option.bind_eq_some_iff.mp h
  have hline := ((c.along_skip taken (blockHeader_line hheader)).trans
    (along_skipWhile _ (p := isSpaceOrTab) (by decide))).trans (along_comment _)
  dsimp only at h
  generalize (if ((c.skip taken).skipWhile isSpaceOrTab).startsWith '#' = true then
    ((c.skip taken).skipWhile isSpaceOrTab).skipLine else (c.skip taken).skipWhile isSpaceOrTab) = c₀ at h hline
  split at h
  · cases h
  obtain ⟨⟨emptyLines, widest, c₁⟩, hempty, h⟩ := Option.bind_eq_some_iff.mp h
  obtain ⟨⟨text', e, c₂⟩, hlines, h⟩ := Option.bind_eq_some_iff.mp h
  cases h
  exact hline.nears ((nears_readBreak _).trans
    ((scanEmptyLines_skips hempty).trans (scanBlockLines_skips (ne_zero_of_widened _ _) hlines)))

end ApiManifest.Yaml
