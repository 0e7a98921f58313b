import ApiManifest.Proofs.Yaml.Scalar

/-!
# Reading tokens

What the scanner does when it reads one token: how far it reads, and how it edits the tokens that it has not
released.
-/

namespace ApiManifest.Yaml

open Cursor

namespace Scanner

variable {c c' : Cursor} {more : List Char}

/-! ## Anchors, tags and directives -/

theorem along_anchorName {name : String} (hc : c.rest.head? ≠ some '\n') (h : scanAnchorName c = some (name, c')) :
    c.Along c' := by
  simp only [scanAnchorName] at h
  split at h
  · cases h
  · cases h
    refine c.along_skip _ ?_
    rw [List.take_add, List.mem_append]
    refine not_or.mpr ⟨?_, ?_⟩
    · cases hrest : c.rest with
      | nil => simp
      | cons ch cs =>
          rw [hrest, List.head?_cons] at hc
          simpa using fun he => hc (congrArg some he.symm)
    · have htake : (c.rest.drop 1).take ((c.skip 1).rest.takeWhile isWordChar).length =
          (c.rest.drop 1).takeWhile isWordChar := take_length_takeWhile _ _
      rw [htake]
      exact notMem_takeWhile (by decide)

theorem percentByte_line {cs : List Char} {b : UInt8} (h : percentByte? cs = some b) : '\n' ∉ cs.take 3 := by
  unfold percentByte? at h
  split at h
  · rename_i x y rest
    simp only [Option.bind_eq_bind, Option.bind_eq_some_iff] at h
    obtain ⟨_, hx, _, hy, _⟩ := h
    have hnone : Json.hexValue '\n' = none := by decide
    have hne : '\n' ≠ x ∧ '\n' ≠ y := by
      constructor <;> rintro rfl <;> simp_all
    simp [hne]
  · cases h

theorem trailingBytes_line {n : Nat} {cs : List Char} {bs : List UInt8} (h : trailingBytes n cs = some bs) :
    '\n' ∉ cs.take (3 * bs.length) := by
  induction n generalizing cs bs with
  | zero =>
      cases h
      simp
  | succ n ih =>
      simp only [trailingBytes, Option.bind_eq_bind, Option.bind_eq_some_iff] at h
      obtain ⟨b, hb, h⟩ := h
      split at h
      · cases h
      · obtain ⟨more, hmore, h⟩ := Option.bind_eq_some_iff.mp h
        cases h
        rw [List.length_cons, Nat.mul_succ, Nat.add_comm, List.take_add, List.mem_append]
        exact not_or.mpr ⟨percentByte_line hb, ih hmore⟩

theorem percentBytes_line {cs : List Char} {bs : List UInt8} (h : percentBytes cs = some bs) :
    '\n' ∉ cs.take (3 * bs.length) := by
  simp only [percentBytes, Option.bind_eq_bind, Option.bind_eq_some_iff, Option.pure_def, Option.some.injEq] at h
  obtain ⟨b, hb, n, _, more, hmore, rfl⟩ := h
  rw [List.length_cons, Nat.mul_succ, Nat.add_comm, List.take_add, List.mem_append]
  exact not_or.mpr ⟨percentByte_line hb, trailingBytes_line hmore⟩

theorem tagText_line {verbatim : Bool} {fuel taken : Nat} {cs : List Char} {bytes : List UInt8}
    (h : scanTagText verbatim fuel cs = some (bytes, taken)) : '\n' ∉ cs.take taken := by
  induction fuel generalizing cs bytes taken with
  | zero =>
      cases h
      simp
  | succ fuel ih =>
      have hplain : '\n' ∉ cs.take (cs.takeWhile (isTagChar verbatim)).length := by
        rw [take_length_takeWhile]
        exact notMem_takeWhile (by cases verbatim <;> decide)
      simp only [scanTagText, Option.bind_eq_bind, Option.pure_def] at h
      split at h
      · rename_i rest hdrop
        simp only [Option.bind_eq_some_iff, Option.some.injEq, Prod.mk.injEq, Prod.exists] at h
        obtain ⟨escaped, hescaped, _, taken', hmore, _, rfl⟩ := h
        rw [List.take_add, List.take_add, List.mem_append, List.mem_append, hdrop]
        exact not_or.mpr ⟨not_or.mpr ⟨hplain, percentBytes_line hescaped⟩, ih hmore⟩
      · cases h
        exact hplain

theorem tagHandle_line {cs handle : List Char} (h : scanTagHandle cs = some handle) :
    cs.take handle.length = handle ∧ '\n' ∉ handle := by
  unfold scanTagHandle at h
  split at h
  · rename_i cs
    have hword := take_length_takeWhile isWordChar cs
    have hnone : '\n' ∉ cs.takeWhile isWordChar := notMem_takeWhile (by decide)
    dsimp only at h
    split at h
    · rename_i rest hdrop
      cases h
      refine ⟨?_, by simpa using hnone⟩
      rw [List.length_append, List.length_cons, List.take_add, List.take_succ_cons, hword, List.drop_succ_cons, hdrop]
      rfl
    · cases h
      exact ⟨by rw [List.length_cons, List.take_succ_cons, hword], by simpa using hnone⟩
  · cases h

theorem along_tag {flow : Bool} {t : Token} (h : scanTag flow c = some (t, c')) : c.Along c' := by
  simp only [scanTag, Option.bind_eq_bind, Option.pure_def] at h
  obtain ⟨⟨handle, suffix, taken⟩, hread, h⟩ := Option.bind_eq_some_iff.mp h
  split at h
  · cases h
  cases h
  refine c.along_skip _ ?_
  split at hread
  · rename_i cs hrest
    obtain ⟨⟨name, n⟩, hname, hread⟩ := Option.bind_eq_some_iff.mp hread
    split at hread
    · rename_i rest hdrop
      split at hread
      · cases hread
      · cases hread
        have hafter : '\n' ∉ cs.take (n + 1) := by
          rw [List.take_add, hdrop, List.mem_append]
          exact not_or.mpr ⟨tagText_line hname, by simp⟩
        rw [hrest]
        simpa using hafter
    · cases hread
  · obtain ⟨handle', hhandle, hread⟩ := Option.bind_eq_some_iff.mp hread
    obtain ⟨⟨name, n⟩, hname, hread⟩ := Option.bind_eq_some_iff.mp hread
    obtain ⟨htake, hnone⟩ := tagHandle_line hhandle
    have hall : '\n' ∉ c.rest.take (handle'.length + n) := by
      rw [List.take_add, List.mem_append, htake]
      exact not_or.mpr ⟨hnone, tagText_line hname⟩
    dsimp only at hread
    split at hread
    · split at hread
      · cases hread
      · cases hread
        exact hall
    · split at hread
      · cases hread
        exact hall
      · cases hread
        exact hall

theorem along_number {n : Nat} (h : scanNumber c = some (n, c')) : c.Along c' := by
  simp only [scanNumber] at h
  split at h
  · cases h
  · cases h
    exact c.along_skip_le (by decide) (Nat.le_refl _)

theorem nears_directive {t : Token} (hc : c.rest.head? ≠ some '\n') (h : scanDirective c = some (t, c')) :
    t ≠ .streamEnd ∧ c.Nears c' := by
  simp only [scanDirective, Option.bind_eq_bind, Option.pure_def, Option.bind_none] at h
  obtain ⟨_, h⟩ := Option.ite_none_left_eq_some.mp h
  obtain ⟨⟨t', c₂⟩, hbody, h⟩ := Option.bind_eq_some_iff.mp h
  have hblanks : c.Along (((c.skip 1).skip ((c.skip 1).rest.takeWhile isWordChar).length).skipWhile isSpaceOrTab) :=
    ((along_skip_one hc).trans (along_skipWhile _ (by decide))).trans (along_skipWhile _ (by decide))
  have hline := (c₂.along_skipWhile (p := isSpaceOrTab) (by decide)).trans (along_comment _)
  dsimp only at h
  generalize (if (c₂.skipWhile isSpaceOrTab).startsWith '#' = true then (c₂.skipWhile isSpaceOrTab).skipLine
    else c₂.skipWhile isSpaceOrTab) = c₃ at h hline
  split at h
  · cases h
  cases h
  suffices hbody : t ≠ .streamEnd ∧
      (((c.skip 1).skip ((c.skip 1).rest.takeWhile isWordChar).length).skipWhile isSpaceOrTab).Along c₂ from
    ⟨hbody.1, ((hblanks.trans hbody.2).trans hline).nears (nears_readBreak _)⟩
  split at hbody
  · obtain ⟨⟨major, c₃⟩, hmajor, hbody⟩ := Option.bind_eq_some_iff.mp hbody
    dsimp only at hbody
    split at hbody
    · cases hbody
    · rename_i hdot
      obtain ⟨⟨minor, c₄⟩, hminor, hbody⟩ := Option.bind_eq_some_iff.mp hbody
      cases hbody
      have hhead : c₃.rest.head? ≠ some '\n' := by
        intro hn
        simp [startsWith, peek?, ← List.head?_eq_getElem?, hn] at hdot
      exact ⟨by simp, ((along_number hmajor).trans (along_skip_one hhead)).trans (along_number hminor)⟩
  split at hbody
  · obtain ⟨handle, hhandle, hbody⟩ := Option.bind_eq_some_iff.mp hbody
    obtain ⟨htake, hnone⟩ := tagHandle_line hhandle
    simp only [Option.ite_none_left_eq_some, Option.bind_eq_some_iff] at hbody
    obtain ⟨_, _, ⟨expansion, taken⟩, htext, _, hbody⟩ := hbody
    cases hbody
    exact ⟨by simp, ((along_skip _ _ (by rwa [htake])).trans (along_skipWhile _ (by decide))).trans
      (along_skip _ _ (tagText_line htext))⟩
  · cases hbody

/-! ## Edits -/

variable {s x y : Scanner}

/-- What reading a token may make of the tokens not yet released and of the possible keys: it adds tokens at the end
or before a possible key, it forgets possible keys, and it notes one where the token starts. -/
inductive Edits (s : Scanner) : List Token → List KeyPlace → Prop where
  | refl : Edits s s.queue s.keys
  | push {queue : List Token} {keys : List KeyPlace} {t : Token} :
      Edits s queue keys → (t = .streamEnd → s.cursor.rest = []) → Edits s (queue ++ [t]) keys
  | insert {queue : List Token} {keys : List KeyPlace} {k : KeyPlace} {t : Token} :
      Edits s queue keys → k ∈ s.keys → t ≠ .streamEnd → Edits s (queue.insertIdx (k.token - s.released) t) keys
  | forget {queue : List Token} {keys keys' : List KeyPlace} :
      Edits s queue keys → keys' ⊆ keys → Edits s queue keys'
  | note {queue : List Token} {keys : List KeyPlace} {k : KeyPlace} :
      Edits s queue keys → k.start = s.cursor → k.token = s.released + queue.length → Edits s queue (k :: keys)

def Rooted (s : Scanner) : Prop :=
  (s.indent :: s.outer).getLast? = some (-1)

structure Edited (s x : Scanner) : Prop where
  edits : Edits s x.queue x.keys
  released : x.released = s.released
  rooted : Rooted s → Rooted x

namespace Edited

theorem refl (s : Scanner) : Edited s s :=
  ⟨.refl, rfl, id⟩

theorem push (h : Edited s x) {t : Token} (ht : t = .streamEnd → s.cursor.rest = []) : Edited s (x.push t) :=
  ⟨h.edits.push ht, h.released, h.rooted⟩

theorem insert (h : Edited s x) {k : KeyPlace} {t : Token} (hk : k ∈ s.keys) (ht : t ≠ .streamEnd) :
    Edited s (x.insert k.token t) := by
  refine ⟨?_, h.released, h.rooted⟩
  rw [Scanner.insert, h.released]
  exact h.edits.insert hk ht

theorem insert_count (h : Edited s x) {t : Token} (ht : t ≠ .streamEnd) : Edited s (x.insert x.count t) := by
  refine ⟨?_, h.released, h.rooted⟩
  rw [Scanner.insert, count, Nat.add_sub_cancel_left, List.insertIdx_length_self]
  exact h.edits.push fun he => absurd he ht

theorem roll (h : Edited s x) {place : Nat} {t : Token} (hinsert : Edited s (x.insert place t)) (column : Nat) :
    Edited s (x.roll column place t) := by
  unfold Scanner.roll
  split
  · exact ⟨hinsert.edits, hinsert.released, fun hs => by simpa [Rooted] using h.rooted hs⟩
  · exact h

theorem roll_count (h : Edited s x) {t : Token} (ht : t ≠ .streamEnd) (column : Nat) :
    Edited s (x.roll column x.count t) :=
  h.roll (h.insert_count ht) column

theorem closeBlocks (h : Edited s x) {outer : List Int} (houter : x.outer = outer) (column : Int) :
    Edited s (closeBlocks column outer x) := by
  induction outer generalizing x with
  | nil => exact h
  | cons i outer ih =>
      rw [Scanner.closeBlocks]
      split
      · refine ih ⟨h.edits.push nofun, h.released, fun hs => ?_⟩ rfl
        have hx := h.rooted hs
        rwa [Rooted, houter] at hx
      · exact h

theorem unroll (h : Edited s x) (column : Int) : Edited s (x.unroll column) := by
  unfold Scanner.unroll
  split
  · exact h
  · exact h.closeBlocks rfl column

theorem forget (h : Edited s x) {keys : List KeyPlace} (hkeys : keys ⊆ x.keys) : Edited s { x with keys } :=
  ⟨h.edits.forget hkeys, h.released, h.rooted⟩

/-- Where the reading has come, and what may come next, is not looked at. -/
theorem goOn (h : Edited s x) (cursor : Cursor) (keyAllowed finished : Bool) (level : Nat) :
    Edited s { x with cursor, keyAllowed, finished, level } :=
  ⟨h.edits, h.released, h.rooted⟩

end Edited

theorem closeBlocks_eq (column : Int) (outer : List Int) (s : Scanner) :
    ∃ queue indent outer', closeBlocks column outer s = { s with queue, indent, outer := outer' } := by
  induction outer generalizing s with
  | nil => exact ⟨_, _, _, rfl⟩
  | cons i outer ih =>
      rw [closeBlocks]
      split
      · obtain ⟨queue, indent, outer', h⟩ := ih { s.push .blockEnd with indent := i, outer }
        exact ⟨queue, indent, outer', h⟩
      · exact ⟨_, _, _, rfl⟩

theorem unroll_eq (column : Int) (s : Scanner) :
    ∃ queue indent outer, s.unroll column = { s with queue, indent, outer } := by
  unfold unroll
  split
  · exact ⟨_, _, _, rfl⟩
  · exact closeBlocks_eq ..

@[simp]
theorem unroll_cursor (column : Int) (s : Scanner) : (s.unroll column).cursor = s.cursor := by
  obtain ⟨_, _, _, h⟩ := unroll_eq column s
  rw [h]

@[simp]
theorem unroll_keys (column : Int) (s : Scanner) : (s.unroll column).keys = s.keys := by
  obtain ⟨_, _, _, h⟩ := unroll_eq column s
  rw [h]

@[simp]
theorem unroll_level (column : Int) (s : Scanner) : (s.unroll column).level = s.level := by
  obtain ⟨_, _, _, h⟩ := unroll_eq column s
  rw [h]

@[simp]
theorem unroll_keyAllowed (column : Int) (s : Scanner) : (s.unroll column).keyAllowed = s.keyAllowed := by
  obtain ⟨_, _, _, h⟩ := unroll_eq column s
  rw [h]

theorem unroll_eq_self {column : Int} (h : s.inFlow = true ∨ s.indent ≤ column) : s.unroll column = s := by
  unfold unroll
  split
  · rfl
  · rename_i hflow
    have hindent : ¬column < s.indent := by
      have := h.resolve_left hflow
      omega
    cases s.outer with
    | nil => rfl
    | cons i outer => rw [closeBlocks, if_neg hindent]

theorem closeBlocks_indent {column : Int} {outer : List Int} (hs : (s.indent :: outer).getLast? = some (-1))
    (hcolumn : -1 ≤ column) : (closeBlocks column outer s).indent ≤ column := by
  induction outer generalizing s with
  | nil =>
      obtain hs : s.indent = -1 := by simpa using hs
      exact hs ▸ hcolumn
  | cons i outer ih =>
      rw [closeBlocks]
      split
      · exact ih (by simpa using hs)
      · omega

theorem unroll_indent {column : Int} (hs : Rooted s) (hcolumn : -1 ≤ column) :
    (s.unroll column).inFlow = true ∨ (s.unroll column).indent ≤ column := by
  unfold unroll
  split
  · exact .inl ‹_›
  · exact .inr (closeBlocks_indent hs hcolumn)

@[simp]
theorem roll_cursor (s : Scanner) (column place : Nat) (t : Token) : (s.roll column place t).cursor = s.cursor := by
  unfold roll
  split <;> rfl

@[simp]
theorem roll_keys (s : Scanner) (column place : Nat) (t : Token) : (s.roll column place t).keys = s.keys := by
  unfold roll
  split <;> rfl

theorem mem_of_currentKey {key : Option KeyPlace} {keys : List KeyPlace} (h : s.currentKey = (key, keys)) :
    keys ⊆ s.keys ∧ ∀ k ∈ key, k ∈ s.keys := by
  unfold currentKey at h
  split at h
  · rename_i k ks hkeys
    split at h <;> cases h <;> simp [hkeys]
  · cases h
    simp

theorem dropKey_eq_some (h : s.dropKey = some x) : ∃ keys ⊆ s.keys, x = { s with keys } := by
  simp only [dropKey] at h
  split at h
  · cases h
  · cases h
    exact ⟨_, (mem_of_currentKey rfl).1, rfl⟩

theorem saveKey_eq_some (h : s.saveKey = some x) :
    (s.keyAllowed = false ∧ x = s) ∨ ∃ keys ⊆ s.keys, ∃ k : KeyPlace, k.level = s.level ∧ k.token = s.count ∧
      k.start = s.cursor ∧ x = { s with keys := k :: keys } := by
  unfold saveKey at h
  split at h
  · simp only [Option.bind_eq_bind, Option.bind_eq_some_iff, Option.pure_def, Option.some.injEq] at h
    obtain ⟨y, hdrop, rfl⟩ := h
    obtain ⟨keys, hkeys, rfl⟩ := dropKey_eq_some hdrop
    exact .inr ⟨keys, hkeys, _, rfl, rfl, rfl, rfl⟩
  · rename_i hallowed
    cases h
    exact .inl ⟨by simpa using hallowed, rfl⟩

theorem Edited.saveKey (h : Edited s x) (hcursor : x.cursor = s.cursor) (hsave : x.saveKey = some y) :
    Edited s y ∧ y.cursor = s.cursor := by
  rcases saveKey_eq_some hsave with ⟨_, rfl⟩ | ⟨keys, hkeys, k, _, htoken, hstart, rfl⟩
  · exact ⟨h, hcursor⟩
  · refine ⟨⟨(h.edits.forget hkeys).note (hstart.trans hcursor) ?_, h.released, h.rooted⟩, hcursor⟩
    rw [htoken, count, h.released]

theorem Edited.dropKey (h : Edited s x) (hcursor : x.cursor = s.cursor) (hdrop : x.dropKey = some y) :
    Edited s y ∧ y.cursor = s.cursor := by
  obtain ⟨keys, hkeys, rfl⟩ := dropKey_eq_some hdrop
  exact ⟨h.forget hkeys, hcursor⟩

/-! ## One token -/

inductive Goes (fuel : Nat) (c : Cursor) (x : Scanner) : Prop where
  | near : c.Nears x.cursor → Goes fuel c x
  | quoted (text : String) : c.Reads x.cursor → c.rest.head?.any (fun ch => ch = '\'' || ch = '"') = true →
      x.queue.getLast? = some (.scalar .quoted text) → Goes fuel c x
  | plain (flow : Bool) (indent : Nat) (text : List Char) :
      scanPlain flow indent fuel {} c = some (text, x.keyAllowed, x.cursor) →
      x.queue.getLast? = some (.scalar .plain (String.ofList text)) → Goes fuel c x

theorem head_ne {ch : Char} {cs : List Char} (hrest : c.rest = ch :: cs) (hch : ch ≠ '\n') :
    c.rest.head? ≠ some '\n' := by
  simpa [hrest] using hch

theorem along_first {ch : Char} {cs : List Char} (hrest : c.rest = ch :: cs) (hch : ch ≠ '\n') :
    c.Along (c.skip 1) :=
  along_skip_one (head_ne hrest hch)

theorem along_documentMark (h : c.atDocumentMark = true) : c.Along (c.skip 3) := by
  refine c.along_skip 3 ?_
  simp only [atDocumentMark, atMark, Bool.or_eq_true, Bool.and_eq_true] at h
  rcases h with ⟨_, h⟩ | ⟨_, h⟩
  all_goals
    split at h
    · rename_i rest hdrop
      rw [← Text.dropFront?_eq_some.mp hdrop]
      simp
    · cases h

theorem Edited.flowSign (h : Edited s x) (hcursor : x.cursor = s.cursor) {t : Token} (ht : t ≠ .streamEnd)
    (allowed : Bool) {ch : Char} {cs : List Char} (hrest : s.cursor.rest = ch :: cs) (hch : ch ≠ '\n') (fuel : Nat) :
    Edited s (x.flowSign t allowed) ∧ Goes fuel s.cursor (x.flowSign t allowed) := by
  have hpush := h.push (t := t) fun he => absurd he ht
  refine ⟨hpush.goOn .., .near (nears_of_along ?_)⟩
  rw [Scanner.flowSign, hcursor]
  exact along_first hrest hch

theorem Edited.fetchNode (h : Edited s x) (hcursor : x.cursor = s.cursor) {scan : Cursor → Option (Token × Cursor)}
    {fuel : Nat} (hscan : ∀ t c', scan s.cursor = some (t, c') → t ≠ .streamEnd ∧
      ∀ x : Scanner, x.queue.getLast? = some t → x.cursor = c' → Goes fuel s.cursor x)
    (hfetch : x.fetchNode scan = some y) : Edited s y ∧ Goes fuel s.cursor y := by
  simp only [Scanner.fetchNode, Option.bind_eq_bind, Option.bind_eq_some_iff, Option.pure_def,
    Option.some.injEq, Prod.exists] at hfetch
  obtain ⟨z, hsave, t, c', ht, rfl⟩ := hfetch
  obtain ⟨hz, hzcursor⟩ := h.saveKey hcursor hsave
  rw [hzcursor] at ht
  obtain ⟨hne, hgoes⟩ := hscan t c' ht
  have hpush := hz.push (t := t) fun he => absurd he hne
  exact ⟨hpush.goOn .., hgoes _ List.getLast?_concat rfl⟩

theorem goes_anchorName {fuel : Nat} {ch : Char} {cs : List Char} (hrest : c.rest = ch :: cs) (hch : ch ≠ '\n')
    {make : String → Token} (hmake : ∀ name, make name ≠ .streamEnd) {t : Token}
    (h : ((scanAnchorName c).map fun (n, c) => (make n, c)) = some (t, c')) :
    t ≠ .streamEnd ∧ ∀ x : Scanner, x.queue.getLast? = some t → x.cursor = c' → Goes fuel c x := by
  obtain ⟨⟨name, c₁⟩, hname, heq⟩ := Option.map_eq_some_iff.mp h
  cases heq
  refine ⟨hmake name, fun x _ hx => .near (nears_of_along ?_)⟩
  rw [hx]
  exact along_anchorName (head_ne hrest hch) hname

theorem goes_tag {fuel : Nat} {flow : Bool} {t : Token} (h : scanTag flow c = some (t, c')) :
    t ≠ .streamEnd ∧ ∀ x : Scanner, x.queue.getLast? = some t → x.cursor = c' → Goes fuel c x := by
  refine ⟨?_, fun x _ hx => .near (hx ▸ nears_of_along (along_tag h))⟩
  simp only [scanTag, Option.bind_eq_bind, Option.pure_def, Option.bind_none] at h
  obtain ⟨_, _, h⟩ := Option.bind_eq_some_iff.mp h
  split at h <;> cases h
  nofun

theorem goes_quoted {fuel : Nat} {ch : Char} {cs : List Char} (hrest : c.rest = ch :: cs)
    (hch : (decide (ch = '\'') || decide (ch = '"')) = true) {t : Token}
    (h : ((scanQuoted (ch = '\'') fuel (c.skip 1)).map fun (text, c) =>
      (Token.scalar .quoted (String.ofList text), c)) = some (t, c')) :
    t ≠ .streamEnd ∧ ∀ x : Scanner, x.queue.getLast? = some t → x.cursor = c' → Goes fuel c x := by
  obtain ⟨⟨text, c₁⟩, htext, heq⟩ := Option.map_eq_some_iff.mp h
  cases heq
  refine ⟨nofun, fun x hlast hx => .quoted _ ?_ ?_ hlast⟩
  · rw [hx]
    exact (along_first hrest (by rintro rfl; simp at hch)).reads.trans (scanQuoted_reads htext)
  · rw [hrest]
    exact hch

theorem nears_endLine (h : c.rest = []) : c.Nears c.endLine := by
  refine ⟨⟨[], ?_, ?_⟩, fun more hc => ?_⟩
  · unfold endLine
    split <;> rfl
  · unfold endLine
    split <;> simp
  · rw [Before, h] at hc
    simp at hc

section Branches

variable {fuel : Nat} {ch : Char} {cs : List Char} (h : Edited s x) (hcursor : x.cursor = s.cursor)
include h hcursor

theorem Edited.fetchSign {start sign : Token} (hstart : start ≠ .streamEnd) (hsign : sign ≠ .streamEnd)
    {allowed : Scanner → Bool} {column : Nat} (hrest : s.cursor.rest = ch :: cs) (hch : ch ≠ '\n')
    (hfetch : ((x.roll column x.count start).dropKey.bind fun z => some (z.flowSign sign (allowed z))) = some y) :
    Edited s y ∧ Goes fuel s.cursor y := by
  obtain ⟨z, hdrop, hfetch⟩ := Option.bind_eq_some_iff.mp hfetch
  cases hfetch
  obtain ⟨hz, hzcursor⟩ := (h.roll_count hstart _).dropKey ((roll_cursor ..).trans hcursor) hdrop
  exact hz.flowSign hzcursor hsign _ hrest hch fuel

theorem Edited.fetchBlockEntry (hrest : s.cursor.rest = ch :: cs) (hch : ch ≠ '\n')
    (hfetch : x.fetchBlockEntry = some y) : Edited s y ∧ Goes fuel s.cursor y := by
  simp only [Scanner.fetchBlockEntry, Option.bind_eq_bind, Option.pure_def, Option.bind_none,
    Option.ite_none_left_eq_some] at hfetch
  exact h.fetchSign hcursor (by nofun) (by nofun) hrest hch hfetch.2

theorem Edited.fetchKey (hrest : s.cursor.rest = ch :: cs) (hch : ch ≠ '\n')
    (hfetch : x.fetchKey = some y) : Edited s y ∧ Goes fuel s.cursor y := by
  simp only [Scanner.fetchKey, Option.bind_eq_bind, Option.pure_def, Option.bind_none,
    Option.ite_none_left_eq_some] at hfetch
  exact h.fetchSign hcursor (by nofun) (by nofun) hrest hch hfetch.2

theorem Edited.fetchValue (hkeys : x.keys ⊆ s.keys) (hrest : s.cursor.rest = ch :: cs) (hch : ch ≠ '\n')
    (hfetch : x.fetchValue = some y) : Edited s y ∧ Goes fuel s.cursor y := by
  unfold Scanner.fetchValue at hfetch
  split at hfetch
  · rename_i k keys hkey
    cases hfetch
    obtain ⟨hsub, hk⟩ := mem_of_currentKey hkey
    have hk : k ∈ s.keys := hkeys (hk k rfl)
    have hinsert := h.insert (t := .key) hk (by nofun)
    have hroll := hinsert.roll (hinsert.insert (t := .blockMappingStart) hk (by nofun)) k.start.column
    have hkept : x.keys ⊆ (Scanner.roll k.start.column k.token .blockMappingStart (x.insert k.token .key)).keys := by
      rw [roll_keys]
      exact List.Subset.refl _
    refine (hroll.forget (List.Subset.trans hsub hkept)).flowSign ?_ (by nofun) false hrest hch fuel
    · rw [← hcursor]
      exact roll_cursor ..
  · split at hfetch
    · cases hfetch
    · cases hfetch
      exact (h.roll_count (by nofun) _).flowSign ((roll_cursor ..).trans hcursor) (by nofun) _ hrest hch fuel

theorem Edited.fetchBlockScalar {style : Style} (hrest : s.cursor.rest = ch :: cs) (hch : ch ≠ '\n')
    (hfetch : x.fetchBlockScalar fuel style = some y) : Edited s y ∧ Goes fuel s.cursor y := by
  simp only [Scanner.fetchBlockScalar, Option.bind_eq_bind, Option.bind_eq_some_iff, Option.pure_def,
    Option.some.injEq, Prod.exists] at hfetch
  obtain ⟨z, hdrop, text, c', hscan, rfl⟩ := hfetch
  obtain ⟨hz, hzcursor⟩ := h.dropKey hcursor hdrop
  have hpush := hz.push (t := .scalar style (String.ofList text)) nofun
  refine ⟨hpush.goOn .., .near ?_⟩
  rw [hzcursor] at hscan
  exact (along_first hrest hch).nears (scanBlock_nears hscan)

theorem Edited.fetchPlain (hfetch : x.fetchPlain fuel = some y) : Edited s y ∧ Goes fuel s.cursor y := by
  simp only [Scanner.fetchPlain, Option.bind_eq_bind, Option.bind_eq_some_iff, Option.pure_def,
    Option.some.injEq, Prod.exists] at hfetch
  obtain ⟨z, hsave, text, broken, c', hscan, rfl⟩ := hfetch
  obtain ⟨hz, hzcursor⟩ := h.saveKey hcursor hsave
  have hpush := hz.push (t := .scalar .plain (String.ofList text)) nofun
  rw [hzcursor] at hscan
  exact ⟨hpush.goOn .., .plain _ _ _ hscan List.getLast?_concat⟩

end Branches

/-- Reading a token is preceded by the skipping of blanks, the forgetting of keys that are too far off and the
closing of collections; the token itself is then read as its first characters say. -/
theorem fetch_outcome {fuel : Nat} (h : s.fetch fuel = some y) :
    ∃ s₀, (skipToToken fuel s).dropStaleKeys = some s₀ ∧ Edited s₀ y ∧ Goes fuel s₀.cursor y := by
  simp only [fetch, Option.bind_eq_bind, Option.pure_def] at h
  obtain ⟨s₀, hstale, h⟩ := Option.bind_eq_some_iff.mp h
  refine ⟨s₀, hstale, ?_⟩
  have hx : Edited s₀ (s₀.unroll s₀.cursor.column) := (Edited.refl s₀).unroll _
  have hcursor : (s₀.unroll s₀.cursor.column).cursor = s₀.cursor := unroll_cursor ..
  have hkeys : (s₀.unroll s₀.cursor.column).keys ⊆ s₀.keys := by rw [unroll_keys]; exact List.Subset.refl _
  generalize s₀.unroll s₀.cursor.column = x at h hx hcursor hkeys
  rw [hcursor] at h
  split at h
  · rename_i hrest
    obtain ⟨z, hdrop, h⟩ := Option.bind_eq_some_iff.mp h
    cases h
    obtain ⟨hz, hzcursor⟩ := (hx.unroll (-1)).dropKey ((unroll_cursor ..).trans hcursor) hdrop
    have hpush := hz.push (t := .streamEnd) fun _ => hrest
    refine ⟨hpush.goOn .., .near ?_⟩
    exact nears_endLine hrest
  rename_i ch cs hrest
  rcases ite_eq_iff.mp h with ⟨hpercent, h⟩ | ⟨_, h⟩
  · obtain ⟨z, hdrop, h⟩ := Option.bind_eq_some_iff.mp h
    obtain ⟨⟨t, c'⟩, hdirective, h⟩ := Option.bind_eq_some_iff.mp h
    cases h
    obtain ⟨hz, _⟩ := (hx.unroll (-1)).dropKey ((unroll_cursor ..).trans hcursor) hdrop
    have hhead : s₀.cursor.rest.head? ≠ some '\n' := head_ne hrest (by rintro rfl; simp at hpercent)
    obtain ⟨hne, hnears⟩ := nears_directive hhead hdirective
    have hpush := hz.push (t := t) fun he => absurd he hne
    exact ⟨hpush.goOn .., .near hnears⟩
  rcases ite_eq_iff.mp h with ⟨hmark, h⟩ | ⟨_, h⟩
  · obtain ⟨z, hdrop, h⟩ := Option.bind_eq_some_iff.mp h
    cases h
    obtain ⟨hz, _⟩ := (hx.unroll (-1)).dropKey ((unroll_cursor ..).trans hcursor) hdrop
    have hpush := hz.push (t := if ch = '-' then .documentStart else .documentEnd) fun he => by split at he <;> cases he
    exact ⟨hpush.goOn .., .near (nears_of_along (along_documentMark hmark))⟩
  rcases ite_eq_iff.mp h with ⟨hopen, h⟩ | ⟨_, h⟩
  · obtain ⟨z, hsave, h⟩ := Option.bind_eq_some_iff.mp h
    cases h
    obtain ⟨hz, hzcursor⟩ := hx.saveKey hcursor hsave
    have hlevel : Edited s₀ { z with level := z.level + 1 } := hz.goOn ..
    refine hlevel.flowSign hzcursor ?_ true hrest ?_ fuel
    · split <;> nofun
    · rintro rfl
      simp at hopen
  rcases ite_eq_iff.mp h with ⟨hclose, h⟩ | ⟨_, h⟩
  · obtain ⟨z, hdrop, h⟩ := Option.bind_eq_some_iff.mp h
    cases h
    obtain ⟨hz, hzcursor⟩ := hx.dropKey hcursor hdrop
    have hlevel : Edited s₀ { z with level := z.level - 1 } := hz.goOn ..
    refine hlevel.flowSign hzcursor ?_ false hrest ?_ fuel
    · split <;> nofun
    · rintro rfl
      simp at hclose
  rcases ite_eq_iff.mp h with ⟨hcomma, h⟩ | ⟨_, h⟩
  · obtain ⟨z, hdrop, h⟩ := Option.bind_eq_some_iff.mp h
    cases h
    obtain ⟨hz, hzcursor⟩ := hx.dropKey hcursor hdrop
    exact hz.flowSign hzcursor (by nofun) true hrest (by rintro rfl; simp at hcomma) fuel
  rcases ite_eq_iff.mp h with ⟨hdash, h⟩ | ⟨_, h⟩
  · exact hx.fetchBlockEntry hcursor hrest (by rintro rfl; simp at hdash) h
  rcases ite_eq_iff.mp h with ⟨hquestion, h⟩ | ⟨_, h⟩
  · exact hx.fetchKey hcursor hrest (by rintro rfl; simp at hquestion) h
  rcases ite_eq_iff.mp h with ⟨hcolon, h⟩ | ⟨_, h⟩
  · exact hx.fetchValue hcursor hkeys hrest (by rintro rfl; simp at hcolon) h
  rcases ite_eq_iff.mp h with ⟨hstar, h⟩ | ⟨_, h⟩
  · exact hx.fetchNode hcursor (fun t c' => goes_anchorName hrest (by rintro rfl; simp at hstar) (by nofun)) h
  rcases ite_eq_iff.mp h with ⟨hand, h⟩ | ⟨_, h⟩
  · exact hx.fetchNode hcursor (fun t c' => goes_anchorName hrest (by rintro rfl; simp at hand) (by nofun)) h
  rcases ite_eq_iff.mp h with ⟨_, h⟩ | ⟨_, h⟩
  · exact hx.fetchNode hcursor (fun t c' => goes_tag) h
  rcases ite_eq_iff.mp h with ⟨hbar, h⟩ | ⟨_, h⟩
  · exact hx.fetchBlockScalar hcursor hrest (by rintro rfl; simp at hbar) h
  rcases ite_eq_iff.mp h with ⟨hangle, h⟩ | ⟨_, h⟩
  · exact hx.fetchBlockScalar hcursor hrest (by rintro rfl; simp at hangle) h
  rcases ite_eq_iff.mp h with ⟨hquote, h⟩ | ⟨_, h⟩
  · exact hx.fetchNode hcursor (fun t c' => goes_quoted hrest hquote) h
  rcases ite_eq_iff.mp h with ⟨_, h⟩ | ⟨_, h⟩
  · exact hx.fetchPlain hcursor h
  · cases h

/-! ## Up to the next token -/

theorem skips_comment (c : Cursor) : c.Skips (if c.startsWith '#' = true then c.skipLine else c) := by
  split
  · rename_i hsign
    refine ⟨c.along_skipLine.reads, fun more hc => .inr (c.along_skipLine.before (hc.before fun hrest => ?_))⟩
    simp [startsWith, peek?, hrest] at hsign
  · exact .refl c

theorem skips_mark (c : Cursor) :
    c.Skips (if (decide (c.column = 0) && c.startsWith '\ufeff') = true then c.skip 1 else c) := by
  split
  · rename_i hmark
    refine c.skips_skip (p := fun ch => ch = '\ufeff') (by decide) (by decide) ?_
    simp only [Bool.and_eq_true, startsWith, peek?, ← List.head?_eq_getElem?, beq_iff_eq] at hmark
    cases hrest : c.rest with
    | nil => simp [hrest] at hmark
    | cons ch cs => simp_all
  · exact .refl c

theorem skipToToken_eq (fuel : Nat) (s : Scanner) :
    ∃ cursor keyAllowed, skipToToken fuel s = { s with cursor, keyAllowed } ∧ s.cursor.Skips cursor := by
  induction fuel generalizing s with
  | zero => exact ⟨_, _, rfl, .refl _⟩
  | succ fuel ih =>
      simp only [skipToToken]
      have hskips := ((skips_mark s.cursor).trans (skips_skipWhile _ (p := fun ch => decide (ch = ' ') ||
        (s.inFlow || !s.keyAllowed) && decide (ch = '\t')) (by simp) (by simp))).trans (skips_comment _)
      generalize (if Cursor.startsWith _ '#' = true then Cursor.skipLine _ else _) = c at hskips ⊢
      split
      · rename_i hbreak
        obtain ⟨cursor, keyAllowed, heq, hmore⟩ :=
          ih { s with cursor := c.readBreak.2, keyAllowed := s.keyAllowed || !s.inFlow }
        exact ⟨cursor, keyAllowed, heq, hskips.trans ((skips_readBreak hbreak).trans hmore)⟩
      · exact ⟨_, _, rfl, hskips⟩

theorem skipToToken_blanks (fuel : Nat) {s : Scanner} {blanks cs : List Char} {ch : Char}
    (hrest : s.cursor.rest = blanks ++ ch :: cs) (hblanks : ∀ b ∈ blanks, b = ' ')
    (hch : (isGap (some ch) || ch = '#' || ch = '\ufeff') = false) :
    skipToToken (fuel + 1) s = { s with cursor := s.cursor.skip blanks.length } := by
  simp only [isGap, isSpaceOrTab, Bool.or_eq_false_iff, decide_eq_false_iff_not] at hch
  obtain ⟨⟨⟨⟨hspace, htab⟩, hbreak⟩, hsign⟩, hmark⟩ := hch
  have hfirst : s.cursor.startsWith '\ufeff' = false := by
    cases blanks with
    | nil => simpa [startsWith, peek?, hrest] using hmark
    | cons b bs => simp [startsWith, peek?, hrest, hblanks b List.mem_cons_self]
  have hwhile : s.cursor.skipWhile (fun ch => decide (ch = ' ') ||
      (s.inFlow || !s.keyAllowed) && decide (ch = '\t')) = s.cursor.skip blanks.length := by
    rw [skipWhile, hrest, List.takeWhile_append_of_pos fun b hb => by simp [hblanks b hb]]
    simp [hspace, htab]
  have hnext : (s.cursor.skip blanks.length).rest = ch :: cs := by
    rw [skip, hrest, List.drop_left]
  have hcomment : (s.cursor.skip blanks.length).startsWith '#' = false := by
    simpa [startsWith, peek?, hnext] using hsign
  have hline : (s.cursor.skip blanks.length).atBreak = false := by
    simpa [atBreak, hnext] using hbreak
  simp [skipToToken, hfirst, hwhile, hcomment, hline]

theorem dropStaleKeys_eq_some (h : s.dropStaleKeys = some x) :
    x = { s with keys := s.keys.filter fun k => !isStale s.cursor k } := by
  rw [dropStaleKeys] at h
  split at h
  · cases h
  · cases h
    rfl

/-- Before a token the scanner is as it was, but that blanks and comments are skipped and keys that are too far off are
forgotten. -/
theorem skipped_eq {fuel : Nat} (h : (skipToToken fuel s).dropStaleKeys = some x) :
    ∃ cursor keyAllowed, x = { s with cursor, keyAllowed, keys := s.keys.filter fun k => !isStale cursor k } ∧
      s.cursor.Skips cursor := by
  obtain ⟨cursor, keyAllowed, hskip, hskips⟩ := skipToToken_eq fuel s
  rw [hskip] at h
  exact ⟨cursor, keyAllowed, dropStaleKeys_eq_some h, hskips⟩

theorem fetch_letter {fuel : Nat} {cs : List Char} (hstale : (skipToToken fuel s).dropStaleKeys = some x)
    (hrest : x.cursor.rest = 'v' :: cs) : s.fetch fuel = (x.unroll x.cursor.column).fetchPlain fuel := by
  have hmark : x.cursor.atDocumentMark = false := by
    simp [atDocumentMark, atMark, hrest, Text.dropFront?]
  simp [fetch, hstale, hrest, hmark, startsPlain, isGap, isSpaceOrTab, isBreak]

theorem fetch_colon {fuel : Nat} {cs : List Char} (hstale : (skipToToken fuel s).dropStaleKeys = some x)
    (hrest : x.cursor.rest = ':' :: ' ' :: cs) : s.fetch fuel = (x.unroll x.cursor.column).fetchValue := by
  have hmark : x.cursor.atDocumentMark = false := by
    simp [atDocumentMark, atMark, hrest, Text.dropFront?]
  simp [fetch, hstale, hrest, hmark, peek?, isGap, isSpaceOrTab]

end Scanner

end ApiManifest.Yaml
