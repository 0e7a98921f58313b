import ApiManifest.Proofs.Yaml.Scanner

/-!
# The tokens of a version's line

A stream is read turn by turn. Up to a line that starts with a version's key, its end is not met; the line is met
between two tokens, in a plain scalar that goes on with it, or in a quoted scalar. But for the last case the key, its
colon and the version are three tokens in a row, or there is a fault before them.
-/

namespace ApiManifest.Yaml

open Cursor

namespace Scanner

/-! ## Turns -/

inductive Turn (size : Nat) : Scanner → List Token → Scanner → Prop where
  | fetch {s y : Scanner} : s.queue = [] → s.fetch size = some y → Turn size s [] y
  | fetchBefore {s x y : Scanner} :
      s.dropStaleKeys = some x → x.mayStartKey = true → x.fetch size = some y → Turn size s [] y
  | release {s x : Scanner} {t : Token} {queue : List Token} :
      s.queue = t :: queue → s.dropStaleKeys = some x → x.mayStartKey = false →
      Turn size s [t] { x with queue, released := x.released + 1 }

theorem run_cases (size fuel : Nat) (s : Scanner) :
    run size fuel s = [.invalid] ∨ (s.queue = [] ∧ run size fuel s = []) ∨
      ∃ left out y, fuel = left + 1 ∧ Turn size s out y ∧ run size fuel s = out ++ run size left y := by
  cases fuel with
  | zero => exact .inl rfl
  | succ fuel =>
      cases hqueue : s.queue with
      | nil =>
          cases hfetch : s.fetch size with
          | none => cases hend : s.finished <;> simp [run, hqueue, hend, hfetch]
          | some y =>
              cases hend : s.finished with
              | true => simp [run, hqueue, hend]
              | false => exact .inr (.inr ⟨fuel, [], y, rfl, .fetch hqueue hfetch, by simp [run, hqueue, hend, hfetch]⟩)
      | cons t queue =>
          cases hstale : s.dropStaleKeys with
          | none => simp [run, hqueue, hstale]
          | some x =>
              cases hstart : x.mayStartKey with
              | false =>
                  exact .inr (.inr ⟨fuel, [t], _, rfl, .release hqueue hstale hstart,
                    by simp [run, hqueue, hstale, hstart]⟩)
              | true =>
                  cases hfetch : x.fetch size with
                  | none => simp [run, hqueue, hstale, hstart, hfetch]
                  | some y =>
                      exact .inr (.inr ⟨fuel, [], y, rfl, .fetchBefore hstale hstart hfetch,
                        by simp [run, hqueue, hstale, hstart, hfetch]⟩)

inductive Reached (cs : List Char) : Scanner → Prop where
  | start : Reached cs { cursor := { rest := cs } }
  | turn {s y : Scanner} {out : List Token} : Reached cs s → Turn (cs.length + 1) s out y → Reached cs y

end Scanner

/-- A quoted scalar starts before the line, and it ends after the line's start. -/
def InQuotes (cs line : List Char) : Prop :=
  ∃ s out y text, Scanner.Reached cs s ∧ Scanner.Turn (cs.length + 1) s out y ∧
    y.queue.getLast? = some (.scalar .quoted text) ∧ s.cursor.Before line ∧ ¬ y.cursor.Toward line

namespace Scanner

/-! ## What edits keep -/

variable {s x y : Scanner} {size : Nat} {e queue : List Token} {keys : List KeyPlace}

namespace Edits

theorem unended (h : Edits s queue keys) (hqueue : .streamEnd ∉ e ++ s.queue) (hrest : s.cursor.rest ≠ []) :
    .streamEnd ∉ e ++ queue := by
  simp only [List.mem_append, not_or] at hqueue ⊢
  refine ⟨hqueue.1, ?_⟩
  induction h with
  | refl => exact hqueue.2
  | push _ ht ih =>
      rw [List.mem_append, List.mem_singleton, not_or]
      exact ⟨ih, fun he => hrest (ht he.symm)⟩
  | insert _ _ ht ih => exact fun hmem => (List.eq_or_mem_of_mem_insertIdx hmem).elim (ht ∘ .symm) ih
  | forget _ _ ih => exact ih
  | note _ _ _ ih => exact ih

theorem length_le (h : Edits s queue keys) : s.queue.length ≤ queue.length := by
  induction h with
  | refl => exact Nat.le_refl _
  | push _ _ ih =>
      rw [List.length_append]
      exact Nat.le_add_right_of_le ih
  | insert _ _ _ ih => exact ih.trans (List.Sublist.length_le (List.sublist_insertIdx ..))
  | forget _ _ ih => exact ih
  | note _ _ _ ih => exact ih

theorem forall_keys (h : Edits s queue keys) {p : KeyPlace → Prop} (hkeys : ∀ k ∈ s.keys, p k)
    (hnew : ∀ k : KeyPlace, k.start = s.cursor → s.count ≤ k.token → p k) : ∀ k ∈ keys, p k := by
  induction h with
  | refl => exact hkeys
  | push _ _ ih => exact ih
  | insert _ _ _ ih => exact ih
  | forget _ hsub ih => exact fun k hk => ih k (hsub hk)
  | note h hstart htoken ih =>
      refine List.forall_mem_cons.mpr ⟨hnew _ hstart ?_, ih⟩
      rw [count, htoken]
      exact Nat.add_le_add_left h.length_le _

theorem prefix_append (h : Edits s queue keys) (hreleased : s.released = e.length) {front : List Token}
    (hfront : front <+: e ++ s.queue) (hkeys : ∀ k ∈ s.keys, front.length ≤ k.token) : front <+: e ++ queue := by
  induction h with
  | refl => exact hfront
  | push _ _ ih =>
      rw [← List.append_assoc]
      exact ih.trans (List.prefix_append _ _)
  | @insert queue _ k t _ hk _ ih =>
      obtain ⟨back, hback⟩ := ih
      rw [hreleased]
      rcases Nat.le_total k.token e.length with hle | hle
      · rw [Nat.sub_eq_zero_of_le hle, List.insertIdx_zero]
        have hwithin : front <+: e :=
          List.prefix_of_prefix_length_le ⟨back, hback⟩ (List.prefix_append _ _) (Nat.le_trans (hkeys k hk) hle)
        exact hwithin.trans (List.prefix_append _ _)
      · rw [← insertIdx_length_add, Nat.add_sub_cancel' hle, ← hback, ← Nat.add_sub_cancel' (hkeys k hk),
          insertIdx_length_add]
        exact List.prefix_append _ _
  | forget _ _ ih => exact ih
  | note _ _ _ ih => exact ih

end Edits

/-! ## Towards the line -/

def live (s : Scanner) : List KeyPlace :=
  s.keys.filter fun k => !isStale s.cursor k

/-- The line is not yet met, and neither is the end. -/
structure Ahead (line : List Char) (e : List Token) (s : Scanner) : Prop where
  toward : s.cursor.Toward line
  keys : ∀ k ∈ s.keys, k.start.Before line ∧ k.start.Reads s.cursor
  unended : .streamEnd ∉ e ++ s.queue
  rooted : Rooted s

/-- The scalar that ends with the line's key is the last token, and it is a key as soon as its colon is read. -/
def Keyed (s : Scanner) (t : String) : Prop :=
  ∃ k queue, s.live = [k] ∧ k.level = s.level ∧ k.start.column = 0 ∧ s.queue = queue ++ [.scalar .plain t] ∧
    k.token = s.released + queue.length ∧ (s.inFlow = true ∨ s.indent ≤ 0)

structure AtColon (more : List Char) (e : List Token) (s : Scanner) : Prop where
  rest : s.cursor.rest = ':' :: ' ' :: more
  keyAllowed : s.keyAllowed = false
  unended : .streamEnd ∉ e ++ s.queue
  key : ∃ t, versionWord <:+ t.toList ∧ (s.Keyed t ∨ (s.live = [] ∧ [.scalar .plain t] <:+ e ++ s.queue))

structure AtValue (more : List Char) (e : List Token) (s : Scanner) : Prop where
  rest : s.cursor.rest = ' ' :: more
  keyAllowed : s.keyAllowed = false
  keys : s.keys = []
  unended : .streamEnd ∉ e ++ s.queue
  shallow : s.inFlow = true ∨ s.indent ≤ 0
  key : ∃ t, versionWord <:+ t.toList ∧ [.scalar .plain t, .value] <:+ e ++ s.queue

def IsEntry (digits : List Char) (ts : List Token) : Prop :=
  ∃ t x tail, versionWord <:+ t.toList ∧ ts = [.scalar .plain t, .value, .scalar .plain x] ∧
    x.toList = 'v' :: digits ++ tail ∧ tail.head?.any Text.isDecimalDigit = false

/-- Those tokens are read, and no key can be put in before them. -/
def Past (digits : List Char) (e : List Token) (s : Scanner) : Prop :=
  ∃ front ts, IsEntry digits ts ∧ .streamEnd ∉ front ∧ front ++ ts <+: e ++ s.queue ∧
    ∀ k ∈ s.keys, (front ++ ts).length ≤ k.token

theorem suffix_versionWord : versionWord <:+ (String.ofList versionWord).toList := by
  rw [String.toList_ofList]

theorem not_isStale_skip {k : KeyPlace} {c : Cursor} {more : List Char} (hstart : k.start = c)
    (hrest : c.rest = versionLine more) : isStale (c.skip versionWord.length) k = false := by
  have htake : c.rest.take versionWord.length = versionWord := by
    rw [hrest, versionLine, List.take_left]
  have hbytes : byteCount versionWord = 7 := by decide
  simp [isStale, hstart, skip, htake, hbytes]

theorem AtColon.of_fetchPlain {more : List Char} (hrest : x.cursor.rest = versionLine more)
    (hcolumn : x.cursor.column = 0) (hkeys : x.keys = []) (hunended : .streamEnd ∉ e ++ x.queue)
    (hshallow : x.inFlow = true ∨ x.indent ≤ 0) {fuel : Nat} (h : x.fetchPlain (fuel + 1) = some y) :
    AtColon more e y := by
  simp only [fetchPlain, Option.bind_eq_bind, Option.bind_eq_some_iff, Option.pure_def, Option.some.injEq,
    Prod.exists] at h
  obtain ⟨z, hsave, text, broken, c', hscan, rfl⟩ := h
  have hnext : (x.cursor.skip versionWord.length).rest = ':' :: ' ' :: more := by
    rw [skip, hrest, versionLine, List.drop_left]
  have hend : .streamEnd ∉ e ++ (x.queue ++ [.scalar .plain (String.ofList versionWord)]) := by
    simpa [List.append_assoc] using hunended
  rcases saveKey_eq_some hsave with ⟨_, rfl⟩ | ⟨keys, hsub, k, hlevel, htoken, hstart, rfl⟩
  · rw [scanPlain_versionLine _ _ _ hrest] at hscan
    cases hscan
    refine ⟨hnext, rfl, hend, _, suffix_versionWord, .inr ⟨?_, ?_⟩⟩
    · simp [live, push, hkeys]
    · exact ⟨e ++ z.queue, List.append_assoc ..⟩
  · rw [scanPlain_versionLine _ _ _ hrest] at hscan
    cases hscan
    obtain rfl : keys = [] := List.subset_nil.mp (hkeys ▸ hsub)
    refine ⟨hnext, rfl, hend, _, suffix_versionWord, .inl ⟨k, x.queue, ?_, hlevel, ?_, rfl, htoken, hshallow⟩⟩
    · simp [live, push, not_isStale_skip hstart hrest]
    · rw [hstart]
      exact hcolumn

theorem fetch_released (h : s.fetch size = some y) : y.released = s.released := by
  obtain ⟨s₀, hstale, hedited, -⟩ := fetch_outcome h
  obtain ⟨cursor, keyAllowed, hs₀, -⟩ := skipped_eq hstale
  rw [hedited.released, hs₀]

theorem Ahead.fetch {more : List Char} (h : Ahead (versionLine more) e s)
    (hquoted : ∀ text, y.queue.getLast? = some (.scalar .quoted text) → s.cursor.Before (versionLine more) →
      y.cursor.Toward (versionLine more))
    (hfetch : s.fetch (size + 1) = some y) : Ahead (versionLine more) e y ∨ AtColon more e y := by
  obtain ⟨s₀, hstale, hedited, hgoes⟩ := fetch_outcome hfetch
  obtain ⟨cursor, keyAllowed, hs₀, hskips⟩ := skipped_eq hstale
  have hcursor : s₀.cursor = cursor := by rw [hs₀]
  have hqueue : s₀.queue = s.queue := by rw [hs₀]
  have hrooted : Rooted s₀ := by
    rw [hs₀]
    exact h.rooted
  have htoward : cursor.Toward (versionLine more) := hskips.2 _ h.toward
  have hkeys : ∀ k ∈ s₀.keys, k.start.Before (versionLine more) ∧ k.start.Reads cursor := by
    intro k hk
    have hk : k ∈ s.keys := by
      rw [hs₀] at hk
      exact (List.mem_filter.mp hk).1
    exact ⟨(h.keys k hk).1, (h.keys k hk).2.trans hskips.1⟩
  by_cases hrest : cursor.rest = versionLine more
  · -- at the line, whatever might have been a key is on another line
    have hnone : s₀.keys = [] := by
      rw [hs₀, List.filter_eq_nil_iff]
      intro k hk
      have hlt := Reads.line_lt ((h.keys k hk).2.trans hskips.1) (h.keys k hk).1 (hrest ▸ List.suffix_refl _)
      simp [isStale, hlt]
    have hcolumn : cursor.column = 0 := by
      rcases htoward with ⟨_, hcolumn⟩ | hbefore
      · exact hcolumn
      · rw [Before, hrest] at hbefore
        exact absurd hbefore.length_le (Nat.not_succ_le_self _)
    rw [fetch_letter hstale (by rw [hcursor, hrest]; rfl)] at hfetch
    have hshallow : (s₀.unroll s₀.cursor.column).inFlow = true ∨
        (s₀.unroll s₀.cursor.column).indent ≤ s₀.cursor.column :=
      unroll_indent hrooted (by omega)
    rw [hcursor, hcolumn] at hshallow hfetch
    have hunroll := (Edited.refl s₀).unroll 0
    refine .inr (AtColon.of_fetchPlain ?_ ?_ ?_ ?_ hshallow hfetch)
    · rw [unroll_cursor, hcursor, hrest]
    · rw [unroll_cursor, hcursor, hcolumn]
    · rw [unroll_keys, hnone]
    · exact hunroll.edits.unended (hqueue ▸ h.unended) (by rw [hcursor, hrest]; exact List.cons_ne_nil _ _)
  · have hbefore : cursor.Before (versionLine more) := htoward.before hrest
    have hunended : .streamEnd ∉ e ++ y.queue := by
      refine hedited.edits.unended (hqueue ▸ h.unended) ?_
      rw [hcursor]
      rintro hnil
      rw [Before, hnil] at hbefore
      simp at hbefore
    have hyKeys (hreads : cursor.Reads y.cursor) :
        ∀ k ∈ y.keys, k.start.Before (versionLine more) ∧ k.start.Reads y.cursor := by
      refine hedited.edits.forall_keys (fun k hk => ⟨(hkeys k hk).1, (hkeys k hk).2.trans hreads⟩) fun k hk _ => ?_
      rw [hk, hcursor]
      exact ⟨hbefore, hreads⟩
    rw [hcursor] at hgoes
    cases hgoes with
    | near hnears => exact .inl ⟨hnears.2 _ hbefore, hyKeys hnears.1, hunended, hedited.rooted hrooted⟩
    | quoted text hreads _ hlast =>
        exact .inl ⟨hquoted text hlast (hskips.1.before hbefore), hyKeys hreads, hunended, hedited.rooted hrooted⟩
    | plain flow indent text hscan hlast =>
        obtain ⟨hreads, hends⟩ := scanPlain_reads hscan
        rcases hends more (.inr hbefore) with hyToward | hword
        · exact .inl ⟨hyToward, hyKeys hreads, hunended, hedited.rooted hrooted⟩
        · -- the scalar goes on with the line, and what might have been a key is on another one
          obtain ⟨hsuffix, hnext, hunbroken⟩ := hword
          refine .inr ⟨hnext, hunbroken, hunended, String.ofList text, ?_, .inr ⟨?_, ?_⟩⟩
          · rwa [String.toList_ofList]
          · rw [live, List.filter_eq_nil_iff]
            intro k hk
            have hsuffix : y.cursor.rest <:+ versionLine more := by
              rw [hnext]
              exact List.suffix_append _ _
            have hlt := Reads.line_lt (hyKeys hreads k hk).2 (hyKeys hreads k hk).1 hsuffix
            simp [isStale, hlt]
          · obtain ⟨queue, hqueue⟩ := List.getLast?_eq_some_iff.mp hlast
            exact ⟨e ++ queue, by rw [hqueue, List.append_assoc]⟩

theorem skipToToken_colon {cs : List Char} (fuel : Nat) (hrest : s.cursor.rest = ':' :: cs) :
    skipToToken (fuel + 1) s = s := by
  have hnone : s.cursor.rest = [] ++ ':' :: cs := hrest
  rw [skipToToken_blanks fuel hnone nofun (by decide)]
  simp [skip, byteCount]

theorem Keyed.fetchValue {t : String} (h : s.Keyed t) (hkeys : s.keys = s.live) (hfetch : s.fetchValue = some y) :
    y.keys = [] ∧ y.keyAllowed = false ∧ y.cursor = s.cursor.skip 1 ∧ (y.inFlow = true ∨ y.indent ≤ 0) ∧
      [.scalar .plain t, .value] <:+ y.queue := by
  obtain ⟨k, queue, hlive, hlevel, hcolumn, hqueue, htoken, hshallow⟩ := h
  have hplace : k.token - s.released = queue.length := by
    rw [htoken, Nat.add_sub_cancel_left]
  have hinsert (ts : List Token) (t' : Token) : (queue ++ ts).insertIdx queue.length t' = queue ++ t' :: ts :=
    insertIdx_length_add queue ts 0 t'
  have hkey : s.currentKey = (some k, []) := by
    simp [currentKey, hkeys, hlive, hlevel]
  rw [Scanner.fetchValue, hkey] at hfetch
  cases hfetch
  refine ⟨rfl, rfl, ?_, ?_, ?_⟩
  · simp [flowSign, push, Scanner.insert]
  · unfold roll
    split
    · exact .inr (by simp [flowSign, push, hcolumn])
    · exact hshallow
  · unfold roll
    split
    · exact ⟨queue ++ [.blockMappingStart, .key], by simp [flowSign, push, Scanner.insert, hqueue, hplace, hinsert]⟩
    · exact ⟨queue ++ [.key], by simp [flowSign, push, Scanner.insert, hqueue, hplace, hinsert]⟩

theorem fetchValue_unkeyed (hkeys : s.keys = []) (hallowed : s.keyAllowed = false) (hfetch : s.fetchValue = some y) :
    s.inFlow = true ∧ y = s.flowSign .value false := by
  have hkey : s.currentKey = (none, []) := by
    simp [currentKey, hkeys]
  rw [Scanner.fetchValue, hkey] at hfetch
  simp only [Option.ite_none_left_eq_some] at hfetch
  obtain ⟨hflow, hfetch⟩ := hfetch
  have hflow : s.inFlow = true := by simpa [hallowed] using hflow
  cases hfetch
  exact ⟨hflow, by simp [roll, hflow]⟩

theorem AtColon.fetch {more : List Char} (h : AtColon more e s) (hfetch : s.fetch (size + 1) = some y) :
    AtValue more e y := by
  obtain ⟨s₀, hstale, hedited, -⟩ := fetch_outcome hfetch
  have hs₀ := dropStaleKeys_eq_some hstale
  rw [skipToToken_colon size h.rest] at hs₀
  have hrest : s₀.cursor.rest = ':' :: ' ' :: more := by
    rw [hs₀]
    exact h.rest
  have hallowed : s₀.keyAllowed = false := by
    rw [hs₀]
    exact h.keyAllowed
  rw [fetch_colon hstale hrest] at hfetch
  have hunended : .streamEnd ∉ e ++ y.queue := by
    refine hedited.edits.unended ?_ (by rw [hrest]; nofun)
    rw [hs₀]
    exact h.unended
  obtain ⟨t, ht, hkey | ⟨hlive, hlast⟩⟩ := h.key
  · have hkeyed : s₀.Keyed t := by
      obtain ⟨k, queue, hlive, hrest⟩ := hkey
      rw [hs₀]
      exact ⟨k, queue, by simpa [live] using hlive, hrest⟩
    have hshallow : s₀.inFlow = true ∨ s₀.indent ≤ s₀.cursor.column := by
      obtain ⟨_, _, _, _, _, _, _, hshallow⟩ := hkeyed
      exact hshallow.imp_right fun h => by omega
    rw [unroll_eq_self hshallow] at hfetch
    obtain ⟨hkeys, hyAllowed, hcursor, hyShallow, front, hqueue⟩ := hkeyed.fetchValue (by simp [hs₀, live]) hfetch
    refine ⟨?_, hyAllowed, hkeys, hunended, hyShallow, t, ht, e ++ front, ?_⟩
    · rw [hcursor, skip, hrest]
      rfl
    · rw [← hqueue, List.append_assoc]
  · obtain ⟨hflow, rfl⟩ := fetchValue_unkeyed (by rw [unroll_keys, hs₀]; exact hlive)
      ((unroll_keyAllowed ..).trans hallowed) hfetch
    have hunroll : s₀.unroll s₀.cursor.column = s₀ := by
      have hlevel : s₀.inFlow = true := by simpa [inFlow] using hflow
      exact unroll_eq_self (.inl hlevel)
    rw [hunroll] at hflow hunended ⊢
    refine ⟨?_, rfl, ?_, hunended, .inl hflow, t, ht, ?_⟩
    · rw [flowSign, skip, hrest]
      rfl
    · rw [hs₀]
      exact hlive
    · obtain ⟨front, hfront⟩ := hlast
      have hqueue : s₀.queue = s.queue := by rw [hs₀]
      have hpush : (s₀.flowSign .value false).queue = s.queue ++ [.value] := by rw [flowSign, push, hqueue]
      exact ⟨front, by rw [hpush, ← List.append_assoc, ← hfront, List.append_assoc, List.singleton_append]⟩

theorem AtValue.fetch {blanks digits back : List Char} (h : AtValue (blanks ++ 'v' :: digits ++ back) e s)
    (hblanks : ∀ b ∈ blanks, b = ' ') (hdigits : ∀ d ∈ digits, d.isDigit = true)
    (hback : back.head?.any Text.isDecimalDigit = false) (hfetch : s.fetch (size + 1) = some y) :
    Past digits e y := by
  obtain ⟨s₀, hstale, -⟩ := fetch_outcome hfetch
  have hs₀ := dropStaleKeys_eq_some hstale
  have hline : s.cursor.rest = (' ' :: blanks) ++ 'v' :: (digits ++ back) := by
    rw [h.rest]
    simp
  rw [skipToToken_blanks size hline (List.forall_mem_cons.mpr ⟨rfl, hblanks⟩) (by decide), h.keys] at hs₀
  have hrest : s₀.cursor.rest = 'v' :: (digits ++ back) := by
    rw [hs₀, skip, hline, List.drop_left]
  have hshallow : s₀.inFlow = true ∨ s₀.indent ≤ s₀.cursor.column := by
    rw [hs₀]
    exact h.shallow.imp_right fun h => by simp only; omega
  have hsave : s₀.saveKey = some s₀ := by
    rw [saveKey, if_neg]
    simp [hs₀, h.keyAllowed]
  rw [fetch_letter hstale hrest, unroll_eq_self hshallow] at hfetch
  simp only [fetchPlain, hsave, Option.bind_eq_bind, Option.bind_some, Option.bind_eq_some_iff, Option.pure_def,
    Option.some.injEq, Prod.exists] at hfetch
  obtain ⟨text, broken, c', hscan, rfl⟩ := hfetch
  obtain ⟨tail, rfl, htail⟩ := scanPlain_digits hrest hdigits hback hscan
  obtain ⟨t, ht, front, hfront⟩ := h.key
  refine ⟨front, _, ⟨t, _, tail, ht, rfl, String.toList_ofList, htail⟩, fun hmem => h.unended ?_, ?_, ?_⟩
  · rw [← hfront]
    exact List.mem_append_left _ hmem
  · rw [push, hs₀, ← List.append_assoc, ← hfront, List.append_assoc]
    exact List.prefix_refl _
  · rw [hs₀]
    simp [push]

theorem Past.fetch {digits : List Char} (h : Past digits e s) (hreleased : s.released = e.length)
    (hfetch : s.fetch size = some y) : Past digits e y := by
  obtain ⟨front, ts, hts, hfront, hread, hkeys⟩ := h
  obtain ⟨s₀, hstale, hedited, -⟩ := fetch_outcome hfetch
  obtain ⟨cursor, keyAllowed, hs₀, -⟩ := skipped_eq hstale
  have hreleased₀ : s₀.released = e.length := by rw [hs₀, hreleased]
  have hread₀ : front ++ ts <+: e ++ s₀.queue := by
    rw [hs₀]
    exact hread
  have hkeys₀ : ∀ k ∈ s₀.keys, (front ++ ts).length ≤ k.token := by
    rw [hs₀]
    exact fun k hk => hkeys k (List.mem_filter.mp hk).1
  refine ⟨front, ts, hts, hfront, hedited.edits.prefix_append hreleased₀ hread₀ hkeys₀, ?_⟩
  refine hedited.edits.forall_keys hkeys₀ fun k _ hk => Nat.le_trans ?_ hk
  rw [count, hreleased₀, ← List.length_append]
  exact hread₀.length_le

/-! ## The whole stream -/

/-- How far the reading of the line has come. -/
inductive Phase (digits more : List Char) (e : List Token) (s : Scanner) : Prop where
  | ahead : Ahead (versionLine more) e s → Phase digits more e s
  | atColon : AtColon more e s → Phase digits more e s
  | atValue : AtValue more e s → Phase digits more e s
  | past : Past digits e s → Phase digits more e s

namespace Phase

variable {digits more : List Char}

theorem forget (h : Phase digits more e s) (hstale : s.dropStaleKeys = some x) : Phase digits more e x := by
  have hx := dropStaleKeys_eq_some hstale
  subst hx
  have hsub {k : KeyPlace} (hk : k ∈ s.keys.filter fun k => !isStale s.cursor k) : k ∈ s.keys :=
    (List.mem_filter.mp hk).1
  cases h with
  | ahead h => exact .ahead ⟨h.toward, fun k hk => h.keys k (hsub hk), h.unended, h.rooted⟩
  | atColon h =>
      have hlive : Scanner.live { s with keys := s.keys.filter fun k => !isStale s.cursor k } = s.live := by
        simp [live]
      refine .atColon ⟨h.rest, h.keyAllowed, h.unended, ?_⟩
      obtain ⟨t, ht, hkey | ⟨hnone, hlast⟩⟩ := h.key
      · obtain ⟨k, queue, hk, hkeyed⟩ := hkey
        exact ⟨t, ht, .inl ⟨k, queue, hlive.trans hk, hkeyed⟩⟩
      · exact ⟨t, ht, .inr ⟨hlive.trans hnone, hlast⟩⟩
  | atValue h =>
      refine .atValue ⟨h.rest, h.keyAllowed, ?_, h.unended, h.shallow, h.key⟩
      simp [h.keys]
  | past h =>
      obtain ⟨front, ts, hts, hfront, hread, hkeys⟩ := h
      exact .past ⟨front, ts, hts, hfront, hread, fun k hk => hkeys k (hsub hk)⟩

theorem release {t : Token} (h : Phase digits more e s) (hqueue : s.queue = t :: queue)
    (hstart : s.mayStartKey = false) :
    Phase digits more (e ++ [t]) { s with queue, released := s.released + 1 } := by
  have hall : e ++ [t] ++ queue = e ++ s.queue := by
    rw [hqueue, List.append_assoc, List.singleton_append]
  cases h with
  | ahead h => exact .ahead ⟨h.toward, h.keys, hall ▸ h.unended, h.rooted⟩
  | atColon h =>
      refine .atColon ⟨h.rest, h.keyAllowed, hall ▸ h.unended, ?_⟩
      obtain ⟨u, hu, hkey | ⟨hnone, hlast⟩⟩ := h.key
      · obtain ⟨k, before, hlive, hlevel, hcolumn, hlast, htoken, hshallow⟩ := hkey
        -- what is released is not the scalar itself, before which a key may still be put in
        have hne : k.token ≠ s.released := by
          have hk : k ∈ s.keys := (List.mem_filter.mp (hlive ▸ List.mem_singleton_self k)).1
          simp only [mayStartKey, List.any_eq_false, beq_iff_eq] at hstart
          exact hstart k hk
        obtain ⟨t', before, rfl⟩ : ∃ t' ts, before = t' :: ts := by
          refine List.exists_cons_of_ne_nil ?_
          rintro rfl
          exact hne htoken
        rw [hqueue, List.cons_append, List.cons.injEq] at hlast
        refine ⟨u, hu, .inl ⟨k, before, hlive, hlevel, hcolumn, hlast.2, ?_, hshallow⟩⟩
        rw [htoken, List.length_cons]
        simp only
        omega
      · exact ⟨u, hu, .inr ⟨hnone, hall ▸ hlast⟩⟩
  | atValue h =>
      obtain ⟨u, hu, hlast⟩ := h.key
      exact .atValue ⟨h.rest, h.keyAllowed, h.keys, hall ▸ h.unended, h.shallow, u, hu, hall ▸ hlast⟩
  | past h =>
      obtain ⟨front, ts, hts, hfront, hread, hkeys⟩ := h
      exact .past ⟨front, ts, hts, hfront, hall ▸ hread, hkeys⟩

theorem unended_or (h : Phase digits more e s) : .streamEnd ∉ e ∨ Past digits e s := by
  cases h with
  | ahead h => exact .inl fun hmem => h.unended (List.mem_append_left _ hmem)
  | atColon h => exact .inl fun hmem => h.unended (List.mem_append_left _ hmem)
  | atValue h => exact .inl fun hmem => h.unended (List.mem_append_left _ hmem)
  | past h => exact .inr h

section Line

variable {blanks back : List Char} (hblanks : ∀ b ∈ blanks, b = ' ') (hdigits : ∀ d ∈ digits, d.isDigit = true)
  (hback : back.head?.any Text.isDecimalDigit = false)
include hblanks hdigits hback

theorem fetch (h : Phase digits (blanks ++ 'v' :: digits ++ back) e s) (hreleased : s.released = e.length)
    (hquoted : ∀ text, y.queue.getLast? = some (.scalar .quoted text) →
      s.cursor.Before (versionLine (blanks ++ 'v' :: digits ++ back)) →
      y.cursor.Toward (versionLine (blanks ++ 'v' :: digits ++ back)))
    (hfetch : s.fetch (size + 1) = some y) : Phase digits (blanks ++ 'v' :: digits ++ back) e y := by
  cases h with
  | ahead h => exact (h.fetch hquoted hfetch).elim .ahead .atColon
  | atColon h => exact .atValue (h.fetch hfetch)
  | atValue h => exact .past (h.fetch hblanks hdigits hback hfetch)
  | past h => exact .past (h.fetch hreleased hfetch)

theorem turn {out : List Token} (h : Phase digits (blanks ++ 'v' :: digits ++ back) e s)
    (hreleased : s.released = e.length)
    (hquoted : ∀ text, y.queue.getLast? = some (.scalar .quoted text) →
      s.cursor.Before (versionLine (blanks ++ 'v' :: digits ++ back)) →
      y.cursor.Toward (versionLine (blanks ++ 'v' :: digits ++ back)))
    (hturn : Turn (size + 1) s out y) :
    Phase digits (blanks ++ 'v' :: digits ++ back) (e ++ out) y ∧ y.released = (e ++ out).length := by
  cases hturn with
  | fetch _ hfetch =>
      rw [List.append_nil]
      exact ⟨h.fetch hblanks hdigits hback hreleased hquoted hfetch, (fetch_released hfetch).trans hreleased⟩
  | fetchBefore hstale _ hfetch =>
      rw [List.append_nil]
      have hx := h.forget hstale
      obtain rfl := dropStaleKeys_eq_some hstale
      exact ⟨hx.fetch hblanks hdigits hback hreleased hquoted hfetch, (fetch_released hfetch).trans hreleased⟩
  | release hqueue hstale hstart =>
      have hx := h.forget hstale
      obtain rfl := dropStaleKeys_eq_some hstale
      exact ⟨hx.release hqueue hstart, by simp [hreleased]⟩

end Line

/-- If the end is released, the tokens of the line are too. -/
theorem released (h : Phase digits more e s) {rest : List Token} (hrest : .streamEnd ∉ rest)
    (hend : .streamEnd ∈ e ++ rest) :
    ∃ front ts, IsEntry digits ts ∧ .streamEnd ∉ front ∧ front ++ ts <+: e ++ rest := by
  have hend : .streamEnd ∈ e := (List.mem_append.mp hend).resolve_right hrest
  obtain ⟨front, ts, hts, hfront, hread, _⟩ := h.unended_or.resolve_left (not_not_intro hend)
  refine ⟨front, ts, hts, hfront, .trans ?_ (List.prefix_append e rest)⟩
  refine (List.prefix_or_prefix_of_prefix hread (List.prefix_append e s.queue)).resolve_right fun hwithin => ?_
  obtain ⟨t, x, tail, _, rfl, _⟩ := hts
  have hmem := hwithin.subset hend
  simp [hfront] at hmem

theorem run {blanks back cs : List Char} (hblanks : ∀ b ∈ blanks, b = ' ') (hdigits : ∀ d ∈ digits, d.isDigit = true)
    (hback : back.head?.any Text.isDecimalDigit = false)
    (hquotes : ¬ InQuotes cs (versionLine (blanks ++ 'v' :: digits ++ back))) {fuel : Nat}
    (h : Phase digits (blanks ++ 'v' :: digits ++ back) e s) (hreleased : s.released = e.length) (hs : Reached cs s)
    (hend : .streamEnd ∈ e ++ Scanner.run (cs.length + 1) fuel s) :
    ∃ front ts, IsEntry digits ts ∧ .streamEnd ∉ front ∧ front ++ ts <+: e ++ Scanner.run (cs.length + 1) fuel s := by
  induction fuel using Nat.strongRecOn generalizing e s with
  | ind fuel ih =>
      obtain hrun | ⟨_, hrun⟩ | ⟨left, out, y, rfl, hturn, hrun⟩ := run_cases (cs.length + 1) fuel s
      · rw [hrun] at hend ⊢
        exact h.released (by simp) hend
      · rw [hrun] at hend ⊢
        exact h.released (by simp) hend
      · -- no turn reads a quoted scalar over the start of the line
        have hquoted : ∀ text, y.queue.getLast? = some (.scalar .quoted text) →
            s.cursor.Before (versionLine (blanks ++ 'v' :: digits ++ back)) →
            y.cursor.Toward (versionLine (blanks ++ 'v' :: digits ++ back)) :=
          fun text hlast hbefore => by
            by_contra hpassed
            exact hquotes ⟨s, out, y, text, hs, hturn, hlast, hbefore, hpassed⟩
        obtain ⟨hy, hyReleased⟩ := h.turn hblanks hdigits hback hreleased hquoted hturn
        rw [hrun, ← List.append_assoc] at hend ⊢
        exact ih left (Nat.lt_succ_self left) hy hyReleased (hs.turn hturn) hend

end Phase

end Scanner

/-- In a stream that is read to its end, a line that starts with a version's key gives the key, its colon and the
version, unless it is in quotes. -/
theorem tokens_versionLine {blanks digits back cs : List Char} (hblanks : ∀ b ∈ blanks, b = ' ')
    (hdigits : ∀ d ∈ digits, d.isDigit = true) (hback : back.head?.any Text.isDecimalDigit = false)
    (hline : Cursor.Toward (versionLine (blanks ++ 'v' :: digits ++ back)) { rest := cs })
    (hquotes : ¬ InQuotes cs (versionLine (blanks ++ 'v' :: digits ++ back))) (hend : .streamEnd ∈ tokens cs) :
    ∃ front ts, Scanner.IsEntry digits ts ∧ .streamEnd ∉ front ∧ front ++ ts <+: tokens cs := by
  have hstart : Scanner.Ahead (versionLine (blanks ++ 'v' :: digits ++ back)) [] { cursor := { rest := cs } } :=
    ⟨hline, nofun, List.not_mem_nil, rfl⟩
  rw [tokens, ← List.nil_append (Scanner.run ..)] at hend ⊢
  exact Scanner.Phase.run hblanks hdigits hback hquotes (.ahead hstart) rfl .start hend

/-! ## Lines that are in no quotes -/

namespace Scanner

variable {s y : Scanner} {size : Nat} {out : List Token}

theorem fetch_reads (h : s.fetch size = some y) : s.cursor.Reads y.cursor := by
  obtain ⟨s₀, hstale, -, hgoes⟩ := fetch_outcome h
  obtain ⟨cursor, keyAllowed, hs₀, hskips⟩ := skipped_eq hstale
  have hcursor : s₀.cursor = cursor := by rw [hs₀]
  rw [hcursor] at hgoes
  refine hskips.1.trans ?_
  cases hgoes with
  | near hnears => exact hnears.1
  | quoted _ hreads => exact hreads
  | plain _ _ _ hscan => exact (scanPlain_reads hscan).1

theorem exists_quote {text : String} {more : List Char} (h : s.fetch size = some y)
    (hlast : y.queue.getLast? = some (.scalar .quoted text)) (hbefore : s.cursor.Before ('v' :: more))
    (hpassed : ¬ y.cursor.Toward ('v' :: more)) :
    ∃ c : Cursor, s.cursor.Reads c ∧ c.Before ('v' :: more) ∧
      c.rest.head?.any (fun ch => ch = '\'' || ch = '"') = true := by
  obtain ⟨s₀, hstale, -, hgoes⟩ := fetch_outcome h
  obtain ⟨cursor, keyAllowed, hs₀, hskips⟩ := skipped_eq hstale
  have hcursor : s₀.cursor = cursor := by rw [hs₀]
  have htoward := hskips.2 more (.inr hbefore)
  rw [← hcursor] at hskips htoward
  by_cases hrest : s₀.cursor.rest = 'v' :: more
  · -- at the line, what is read is a plain scalar
    rw [fetch_letter hstale hrest] at h
    simp only [fetchPlain, Option.bind_eq_bind, Option.bind_eq_some_iff, Option.pure_def, Option.some.injEq,
      Prod.exists] at h
    obtain ⟨z, _, word, _, _, _, rfl⟩ := h
    have hplain : (z.queue ++ [Token.scalar .plain (String.ofList word)]).getLast? = _ := hlast
    rw [List.getLast?_concat] at hplain
    cases hplain
  · have hnear := htoward.before hrest
    cases hgoes with
    | near hnears => exact absurd (hnears.2 more hnear) hpassed
    | quoted _ _ hquote => exact ⟨s₀.cursor, hskips.1, hnear, hquote⟩
    | plain _ _ _ _ hplain =>
        rw [hlast] at hplain
        cases hplain

theorem Turn.fetches (h : Turn size s out y) :
    y.cursor = s.cursor ∨ ∃ x : Scanner, x.cursor = s.cursor ∧ x.fetch size = some y := by
  cases h with
  | fetch _ hfetch => exact .inr ⟨s, rfl, hfetch⟩
  | fetchBefore hstale _ hfetch => exact .inr ⟨_, by rw [dropStaleKeys_eq_some hstale], hfetch⟩
  | release _ hstale _ => exact .inl (by rw [dropStaleKeys_eq_some hstale])

theorem Reached.reads {cs : List Char} (h : Reached cs s) : Cursor.Reads { rest := cs } s.cursor := by
  induction h with
  | start => exact .refl _
  | turn _ hturn ih =>
      rcases hturn.fetches with hcursor | ⟨x, hcursor, hfetch⟩
      · rwa [hcursor]
      · exact ih.trans (hcursor ▸ fetch_reads hfetch)

end Scanner

theorem not_inQuotes {front more : List Char} (h : ∀ ch ∈ front, (ch = '\'' || ch = '"') = false) :
    ¬ InQuotes (front ++ 'v' :: more) ('v' :: more) := by
  rintro ⟨s, out, y, text, hs, hturn, hlast, hbefore, hpassed⟩
  rcases hturn.fetches with hcursor | ⟨x, hcursor, hfetch⟩
  · exact hpassed (hcursor ▸ .inr hbefore)
  · obtain ⟨c, hreads, ⟨between, hbetween⟩, hquote⟩ := Scanner.exists_quote hfetch hlast (hcursor ▸ hbefore) hpassed
    obtain ⟨taken, htaken, -⟩ := hs.reads.trans (hcursor ▸ hreads)
    obtain ⟨ch, between, rfl⟩ : ∃ ch chs, between = ch :: chs := by
      refine List.exists_cons_of_ne_nil ?_
      rintro rfl
      rw [← hbetween] at hquote
      cases hquote
    have hfront : front = taken ++ ch :: between ++ ['\n'] := by
      rw [← hbetween] at htaken
      refine List.append_cancel_right (htaken.trans ?_)
      simp
    have hch : (ch = '\'' || ch = '"') = true := by
      rw [← hbetween] at hquote
      exact hquote
    rw [h ch (by simp [hfront])] at hch
    cases hch

end ApiManifest.Yaml
