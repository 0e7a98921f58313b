import ApiManifest.Proofs.Except
import ApiManifest.Proofs.Template.Pieces
import ApiManifest.Proofs.Text.Identifier
import ApiManifest.Template.Roots
import Mathlib.Data.List.Forall2

/-!
# The grammar of templates

What the pieces of a template may say, and in which order. A text is a template just if its pieces are of
the grammar, and then the nodes, written out, say the same again.
-/

namespace ApiManifest.Template

open Text

/-! ## What a piece says -/

/-- The pieces that say something. Blanks at the ends of a tag, and after a mark, say nothing. -/
inductive Says : Piece → Token → Prop where
  | text {cs} (closed : ¬ ['{', '{'] <:+: cs) : Says (.text cs) (.text (String.ofList cs))
  | include {a b name c} (ha : Blank a) (hb : Blank b) (hc : Blank c) (hname : IsPath name) :
      Says (.tag (a ++ (['>'] ++ b ++ name) ++ c)) (.include (String.ofList name))
  | ifStart {a b path c} (ha : Blank a) (hb : Blank b) (hc : Blank c) (hpath : IsPath path) :
      Says (.tag (a ++ (['#', 'i', 'f'] ++ b ++ path) ++ c)) (.ifStart (String.ofList path))
  | ifElse {a c} (ha : Blank a) (hc : Blank c) : Says (.tag (a ++ ['e', 'l', 's', 'e'] ++ c)) .ifElse
  | ifEnd {a c} (ha : Blank a) (hc : Blank c) : Says (.tag (a ++ ['/', 'i', 'f'] ++ c)) .ifEnd
  | value {a path c} (ha : Blank a) (hc : Blank c) (hpath : IsPath path) (hne : path ≠ ['e', 'l', 's', 'e']) :
      Says (.tag (a ++ path ++ c)) (.value (String.ofList path))

theorem says_of_tagToken {inner : List Char} {t : Token} (h : tagToken inner = .ok t) : Says (.tag inner) t := by
  obtain ⟨a, c, ha, hc, hinner⟩ := exists_trim inner
  unfold tagToken at h
  dsimp only at h
  split at h
  · rename_i name hname
    obtain ⟨b, d, hb, hd, hrest⟩ := exists_trim name
    split at h <;> cases h
    rename_i hpath
    have heq : inner = a ++ (['>'] ++ b ++ trim name) ++ (d ++ c) := by
      rw [hinner, hname]
      conv_lhs => rw [hrest]
      simp
    rw [heq]
    exact .include ha hb (hd.append hc) (isDottedIdentifier_iff.mp hpath)
  · rename_i path hpath
    obtain ⟨b, d, hb, hd, hrest⟩ := exists_trim path
    split at h <;> cases h
    rename_i hdotted
    have heq : inner = a ++ (['#', 'i', 'f'] ++ b ++ trim path) ++ (d ++ c) := by
      rw [hinner, hpath]
      conv_lhs => rw [hrest]
      simp
    rw [heq]
    exact .ifStart ha hb (hd.append hc) (isDottedIdentifier_iff.mp hdotted)
  · rw [hinner]
    split at h
    · rename_i htag
      cases h
      rw [htag]
      exact .ifElse ha hc
    · split at h
      · rename_i htag
        cases h
        rw [htag]
        exact .ifEnd ha hc
      · split at h <;> cases h
        rename_i hne _ hpath
        exact .value ha hc (isDottedIdentifier_iff.mp hpath) hne

theorem tagToken_value {path : List Char} (hpath : IsPath path) (hne : path ≠ ['e', 'l', 's', 'e']) {inner : List Char}
    (htrim : trim inner = path) : tagToken inner = .ok (.value (String.ofList path)) := by
  obtain ⟨first, rest, rfl, hfirst⟩ := hpath.exists_cons
  unfold tagToken
  rw [htrim]
  dsimp only
  have hmark : first ≠ '>' ∧ first ≠ '#' ∧ first ≠ '/' := by
    rcases hfirst with hfirst | rfl
    · have hn := hfirst.toNat
      refine ⟨?_, ?_, ?_⟩ <;> rintro rfl <;> simp at hn
    · decide
  split
  · rename_i heq
    exact absurd (List.cons.inj heq).1 hmark.1
  · rename_i heq
    exact absurd (List.cons.inj heq).1 hmark.2.1
  · rw [if_neg hne, if_neg fun h => hmark.2.2 (List.cons.inj h).1, if_pos (isDottedIdentifier_iff.mpr hpath)]

theorem token_eq_ok {p : Piece} {t : Token} : p.token = .ok t ↔ Says p t := by
  constructor
  · intro h
    cases p with
    | text cs =>
        rw [Piece.token] at h
        split at h <;> cases h
        rename_i hclosed
        exact .text fun hpart => hclosed (hasPart_iff.mpr hpart)
    | tag inner => exact says_of_tagToken h
  · intro h
    cases h with
    | text closed => rw [Piece.token, if_neg fun h => closed (hasPart_iff.mp h)]
    | @«include» a b name c ha hb hc hname =>
        have htrim : trim (a ++ (['>'] ++ b ++ name) ++ c) = '>' :: (b ++ name) :=
          trim_append ha hc (hname.tight_mark (by simp) (by simp [isBlank]))
        have hname' : trim (b ++ name) = name := by simpa using trim_append hb blank_nil hname.tight
        simp only [Piece.token, tagToken, htrim, hname', isDottedIdentifier_iff.mpr hname, if_true]
    | @ifStart a b path c ha hb hc hpath =>
        have htrim : trim (a ++ (['#', 'i', 'f'] ++ b ++ path) ++ c) = '#' :: 'i' :: 'f' :: (b ++ path) :=
          trim_append ha hc (hpath.tight_mark (by simp) (by simp [isBlank]))
        have hpath' : trim (b ++ path) = path := by simpa using trim_append hb blank_nil hpath.tight
        simp only [Piece.token, tagToken, htrim, hpath', isDottedIdentifier_iff.mpr hpath, if_true]
    | ifElse ha hc =>
        have htight : Tight ['e', 'l', 's', 'e'] := ⟨by simp [isBlank], by simp [isBlank]⟩
        have htrim := trim_append ha hc htight
        simp only [Piece.token, tagToken, htrim]
        rfl
    | ifEnd ha hc =>
        have htight : Tight ['/', 'i', 'f'] := ⟨by simp [isBlank], by simp [isBlank]⟩
        have htrim := trim_append ha hc htight
        simp only [Piece.token, tagToken, htrim]
        rfl
    | value ha hc hpath hne => exact tagToken_value hpath hne (trim_append ha hc hpath.tight)

/-! ## The order of what is said -/

def Token.isLeaf : Token → Bool
  | .text _ | .value _ | .include _ => true
  | _ => false

/-- Stretches of text, values, inclusions and conditions, one after another; a condition holds a block or,
divided by `else`, two. -/
inductive Block : List Token → Prop where
  | nil : Block []
  | leaf {t ts} (ht : t.isLeaf = true) : Block ts → Block (t :: ts)
  | cond {path a ts} : Block a → Block ts → Block (.ifStart path :: (a ++ .ifEnd :: ts))
  | condElse {path a b ts} : Block a → Block b → Block ts →
      Block (.ifStart path :: (a ++ .ifElse :: (b ++ .ifEnd :: ts)))

theorem Block.append {a b : List Token} (ha : Block a) (hb : Block b) : Block (a ++ b) := by
  induction ha with
  | nil => exact hb
  | leaf ht _ ih => exact .leaf ht ih
  | @cond path a ts ha _ _ ih =>
      rw [List.cons_append, List.append_assoc]
      exact .cond ha ih
  | @condElse path a b ts ha hb _ _ _ ih =>
      rw [List.cons_append, List.append_assoc, List.cons_append, List.append_assoc]
      exact .condElse ha hb ih

mutual
/-- What a node says, written out. A second branch without nodes is not written. -/
def Node.tokens : Node → List Token
  | .text s => [.text s]
  | .value path => [.value path]
  | .include name => [.include name]
  | .cond path onTrue onFalse =>
    let second := if onFalse.isEmpty then [] else .ifElse :: nodeTokens onFalse
    .ifStart path :: (nodeTokens onTrue ++ (second ++ [.ifEnd]))

def nodeTokens : List Node → List Token
  | [] => []
  | node :: nodes => node.tokens ++ nodeTokens nodes
end

theorem nodeTokens_append (a b : List Node) : nodeTokens (a ++ b) = nodeTokens a ++ nodeTokens b := by
  induction a with
  | nil => rfl
  | cons node a ih => rw [List.cons_append, nodeTokens, nodeTokens, ih, List.append_assoc]

theorem nodeTokens_eq_nil {nodes : List Node} : nodeTokens nodes = [] ↔ nodes = [] := by
  cases nodes with
  | nil => simp [nodeTokens]
  | cons node nodes => cases node <;> simp [nodeTokens, Node.tokens]

def dropEmptyTexts (ts : List Token) : List Token :=
  ts.filter fun t => t ≠ .text ""

def dropEmptyElse : List Token → List Token
  | [] => []
  | .ifElse :: .ifEnd :: ts => .ifEnd :: dropEmptyElse ts
  | t :: ts => t :: dropEmptyElse ts

theorem dropEmptyElse_cons {t : Token} {ts : List Token} (h : t ≠ .ifElse ∨ ts.head? ≠ some .ifEnd) :
    dropEmptyElse (t :: ts) = t :: dropEmptyElse ts := by
  rw [dropEmptyElse]
  rintro ts' rfl rfl
  simp at h

theorem dropEmptyElse_eq_nil {ts : List Token} : dropEmptyElse ts = [] ↔ ts = [] := by
  unfold dropEmptyElse
  split <;> simp

theorem dropEmptyElse_ifStart (path : String) (ts : List Token) :
    dropEmptyElse (.ifStart path :: ts) = .ifStart path :: dropEmptyElse ts :=
  dropEmptyElse_cons (.inl (by simp))

theorem dropEmptyElse_ifEnd (ts : List Token) : dropEmptyElse (.ifEnd :: ts) = .ifEnd :: dropEmptyElse ts :=
  dropEmptyElse_cons (.inl (by simp))

theorem dropEmptyElse_branch {b rest : List Token} (hhead : ∀ t ∈ b.head?, t ≠ .ifElse ∧ t ≠ .ifEnd)
    (hb : ∀ rest, dropEmptyElse (b ++ rest) = dropEmptyElse b ++ dropEmptyElse rest) :
    dropEmptyElse (.ifElse :: (b ++ .ifEnd :: rest)) =
      (if b.isEmpty then [] else .ifElse :: dropEmptyElse b) ++ .ifEnd :: dropEmptyElse rest := by
  cases b with
  | nil => rfl
  | cons t b =>
      rw [dropEmptyElse_cons (.inr (by simpa using (hhead t rfl).2)), hb, dropEmptyElse_ifEnd]
      rfl

namespace Block

variable {a b ts : List Token}

theorem head?_ne (h : Block ts) : ∀ t ∈ (dropEmptyTexts ts).head?, t ≠ .ifElse ∧ t ≠ .ifEnd := by
  induction h with
  | nil => simp [dropEmptyTexts]
  | @leaf t ts ht _ ih =>
      by_cases hs : t = .text ""
      · simpa [dropEmptyTexts, hs] using ih
      · cases t <;> simp [dropEmptyTexts, hs, Token.isLeaf] at ht ⊢
  | cond | condElse => simp [dropEmptyTexts]

theorem dropEmptyElse_append (h : Block a) (rest : List Token) :
    dropEmptyElse (dropEmptyTexts a ++ rest) = dropEmptyElse (dropEmptyTexts a) ++ dropEmptyElse rest := by
  -- the condition that an `else` belongs to ends within the block, so that none is left to meet the rest
  induction h generalizing rest with
  | nil => rfl
  | @leaf t ts ht _ ih =>
      by_cases hs : t = .text ""
      · simpa [dropEmptyTexts, hs] using ih rest
      · have hkept : dropEmptyTexts (t :: ts) = t :: dropEmptyTexts ts := by simp [dropEmptyTexts, hs]
        have hcons : ∀ rest, dropEmptyElse (t :: rest) = t :: dropEmptyElse rest := by
          intro rest
          refine dropEmptyElse_cons (.inl ?_)
          rintro rfl
          cases ht
        rw [hkept, List.cons_append, hcons, ih, hcons]
        rfl
  | @cond path a ts _ _ iha ih =>
      have hkept : dropEmptyTexts (.ifStart path :: (a ++ .ifEnd :: ts)) =
          .ifStart path :: (dropEmptyTexts a ++ .ifEnd :: dropEmptyTexts ts) := by simp [dropEmptyTexts]
      simp only [hkept, List.cons_append, List.append_assoc, dropEmptyElse_ifStart, dropEmptyElse_ifEnd, iha, ih]
  | @condElse path a b ts _ hb _ iha ihb ih =>
      have hkept : dropEmptyTexts (.ifStart path :: (a ++ .ifElse :: (b ++ .ifEnd :: ts))) =
          .ifStart path :: (dropEmptyTexts a ++ .ifElse :: (dropEmptyTexts b ++ .ifEnd :: dropEmptyTexts ts)) := by
        simp [dropEmptyTexts]
      simp only [hkept, List.cons_append, List.append_assoc, dropEmptyElse_ifStart, iha,
        dropEmptyElse_branch hb.head?_ne ihb, ih]

end Block

structure Parsed (ts : List Token) (nodes : List Node) : Prop where
  block : Block ts
  tokens : nodeTokens nodes = dropEmptyElse (dropEmptyTexts ts)

namespace Parsed

variable {a b : List Token} {as bs : List Node}

theorem nil : Parsed [] [] :=
  ⟨.nil, rfl⟩

theorem append (ha : Parsed a as) (hb : Parsed b bs) : Parsed (a ++ b) (as ++ bs) where
  block := ha.block.append hb.block
  tokens := by
    have hkept : dropEmptyTexts (a ++ b) = dropEmptyTexts a ++ dropEmptyTexts b := by simp [dropEmptyTexts]
    rw [nodeTokens_append, ha.tokens, hb.tokens, hkept, ha.block.dropEmptyElse_append]

theorem text (s : String) : Parsed [.text s] (if s = "" then [] else [.text s]) where
  block := .leaf rfl .nil
  tokens := by
    by_cases hs : s = "" <;> simp [dropEmptyTexts, hs, nodeTokens, Node.tokens, dropEmptyElse]

theorem value (path : String) : Parsed [.value path] [.value path] :=
  ⟨.leaf rfl .nil, rfl⟩

theorem «include» (name : String) : Parsed [.include name] [.include name] :=
  ⟨.leaf rfl .nil, rfl⟩

theorem cond {path : String} (ha : Parsed a as) : Parsed (.ifStart path :: (a ++ [.ifEnd])) [.cond path as []] where
  block := .cond ha.block .nil
  tokens := by
    have hkept : dropEmptyTexts (.ifStart path :: (a ++ [.ifEnd])) = .ifStart path :: (dropEmptyTexts a ++ [.ifEnd]) := by
      simp [dropEmptyTexts]
    rw [hkept, dropEmptyElse_ifStart, ha.block.dropEmptyElse_append, ← ha.tokens]
    simp [nodeTokens, Node.tokens, dropEmptyElse]

theorem condElse {path : String} (ha : Parsed a as) (hb : Parsed b bs) :
    Parsed (.ifStart path :: (a ++ .ifElse :: (b ++ [.ifEnd]))) [.cond path as bs] where
  block := .condElse ha.block hb.block .nil
  tokens := by
    have hkept : dropEmptyTexts (.ifStart path :: (a ++ .ifElse :: (b ++ [.ifEnd]))) =
        .ifStart path :: (dropEmptyTexts a ++ .ifElse :: (dropEmptyTexts b ++ [.ifEnd])) := by
      simp [dropEmptyTexts]
    have hempty : (dropEmptyTexts b).isEmpty = bs.isEmpty := by
      rw [Bool.eq_iff_iff, List.isEmpty_iff, List.isEmpty_iff, ← nodeTokens_eq_nil, hb.tokens, dropEmptyElse_eq_nil]
    rw [hkept, dropEmptyElse_ifStart, ha.block.dropEmptyElse_append, ← ha.tokens,
      dropEmptyElse_branch hb.block.head?_ne hb.block.dropEmptyElse_append, ← hb.tokens, hempty]
    simp [nodeTokens, Node.tokens, dropEmptyElse]

end Parsed

/-! ## Building -/

def advance : List Node × List OpenCond → Token → Except SyntaxError (List Node × List OpenCond)
  | (done, conds), .text s => .ok (if s = "" then done else .text s :: done, conds)
  | (done, conds), .value path => .ok (.value path :: done, conds)
  | (done, conds), .include name => .ok (.include name :: done, conds)
  | (done, conds), .ifStart path => .ok ([], { before := done, path } :: conds)
  | (done, o :: conds), .ifElse =>
    if o.onTrue.isSome then .error .strayElse else .ok ([], { o with onTrue := some done.reverse } :: conds)
  | (_, []), .ifElse => .error .strayElse
  | (done, o :: conds), .ifEnd => .ok (o.close done :: o.before, conds)
  | (_, []), .ifEnd => .error .strayEnd

theorem build_cons (p : Piece) (ps : List Piece) (done : List Node) (conds : List OpenCond) :
    build (p :: ps) done conds = (do
      let t ← p.token
      let (done, conds) ← advance (done, conds) t
      build ps done conds) := by
  rw [build]
  cases p.token with
  | error e => rfl
  | ok t =>
      cases t with
      | text | value | «include» | ifStart => rfl
      | ifElse =>
          cases conds with
          | nil => rfl
          | cons o conds =>
              cases h : o.onTrue with
              | none => simp [advance, h, bind, Except.bind]
              | some onTrue =>
                  simp [advance, h, bind, Except.bind]
                  rfl
      | ifEnd => cases conds <;> rfl

/-- Building comes to going through the tokens of the pieces and leaving no condition open. -/
theorem build_eq_ok {ps : List Piece} {done nodes : List Node} {conds : List OpenCond} :
    build ps done conds = .ok nodes ↔
      ∃ ts, List.Forall₂ Says ps ts ∧ ∃ done', ts.foldlM advance (done, conds) = .ok (done', []) ∧ done'.reverse = nodes := by
  induction ps generalizing done conds with
  | nil =>
      simp only [List.forall₂_nil_left_iff, exists_eq_left, List.foldlM_nil, pure_eq_ok, Prod.mk.injEq]
      cases conds with
      | nil => simp [build]
      | cons o conds => simp [build]
  | cons p ps ih =>
      simp only [build_cons, bind_eq_ok, token_eq_ok, ih]
      constructor
      · rintro ⟨t, ht, ⟨done₁, conds₁⟩, hstep, ts, hts, done', hrun, rfl⟩
        exact ⟨t :: ts, .cons ht hts, done', bind_eq_ok.mpr ⟨_, hstep, hrun⟩, rfl⟩
      · rintro ⟨_, hts, done', hrun, rfl⟩
        cases hts with
        | cons ht hts =>
            obtain ⟨next, hstep, hrun⟩ := bind_eq_ok.mp hrun
            exact ⟨_, ht, next, hstep, _, hts, done', hrun, rfl⟩

/-! ## What is built is of the grammar -/

/-- The tokens read so far, as the nodes of the innermost branch and the open conditions stand for them. -/
inductive Opened : List Token → List Node × List OpenCond → Prop where
  | root {ts done} (h : Parsed ts done.reverse) : Opened ts (done, [])
  | onTrue {ts a before path done conds} (outer : Opened ts (before, conds)) (ha : Parsed a done.reverse) :
      Opened (ts ++ .ifStart path :: a) (done, { before, path } :: conds)
  | onFalse {ts a b before path as done conds} (outer : Opened ts (before, conds)) (ha : Parsed a as)
      (hb : Parsed b done.reverse) :
      Opened (ts ++ .ifStart path :: (a ++ .ifElse :: b)) (done, { before, path, onTrue := some as } :: conds)

namespace Opened

variable {ts a : List Token} {done : List Node} {conds : List OpenCond}

theorem append {as : List Node} (h : Opened ts (done, conds)) (ha : Parsed a as) :
    Opened (ts ++ a) (as.reverse ++ done, conds) := by
  cases h with
  | root h => exact .root (by simpa using h.append ha)
  | onTrue outer h =>
      rw [List.append_assoc, List.cons_append]
      exact .onTrue outer (by simpa using h.append ha)
  | onFalse outer h h' =>
      rw [List.append_assoc, List.cons_append, List.append_assoc, List.cons_append]
      exact .onFalse outer h (by simpa using h'.append ha)

theorem advance {state : List Node × List OpenCond} {t : Token} (h : Opened ts (done, conds))
    (ht : Template.advance (done, conds) t = .ok state) : Opened (ts ++ [t]) state := by
  -- leaves go into the innermost branch, and so does a condition once it is closed, one level further out
  cases t with
  | text s =>
      cases ht
      have := h.append (.text s)
      by_cases hs : s = "" <;> simpa [hs] using this
  | value path =>
      cases ht
      exact h.append (.value path)
  | «include» name =>
      cases ht
      exact h.append (.include name)
  | ifStart path =>
      cases ht
      exact .onTrue h .nil
  | ifElse =>
      cases h with
      | root => cases ht
      | onTrue outer ha =>
          cases ht
          rw [List.append_assoc, List.cons_append]
          exact .onFalse outer ha .nil
      | onFalse => cases ht
  | ifEnd =>
      cases h with
      | root => cases ht
      | onTrue outer ha =>
          cases ht
          rw [List.append_assoc, List.cons_append]
          exact outer.append (.cond ha)
      | onFalse outer ha hb =>
          cases ht
          rw [List.append_assoc, List.cons_append, List.append_assoc, List.cons_append]
          exact outer.append (.condElse ha hb)

theorem run {more : List Token} {state state' : List Node × List OpenCond} (h : Opened ts state)
    (hrun : more.foldlM Template.advance state = .ok state') : Opened (ts ++ more) state' := by
  induction more generalizing ts state with
  | nil =>
      cases hrun
      rwa [List.append_nil]
  | cons t more ih =>
      obtain ⟨next, hstep, hrun⟩ := bind_eq_ok.mp hrun
      have := ih (h.advance hstep) hrun
      rwa [List.append_assoc] at this

end Opened

theorem parsed_of_run {ts : List Token} {done : List Node} (h : ts.foldlM advance ([], []) = .ok (done, [])) :
    Parsed ts done.reverse := by
  cases (Opened.root .nil).run h with
  | root h => exact h

/-! ## What is of the grammar is built -/

/-- A block is read into the innermost branch, whatever that is and whichever conditions are open. -/
theorem Block.exists_run {ts : List Token} (h : Block ts) :
    ∃ nodes, ∀ done conds, ts.foldlM advance (done, conds) = .ok (nodes ++ done, conds) := by
  induction h with
  | nil => exact ⟨[], fun _ _ => rfl⟩
  | @leaf t ts ht _ ih =>
      obtain ⟨nodes, hrun⟩ := ih
      cases t with
      | text s =>
          refine ⟨nodes ++ (if s = "" then [] else [.text s]), fun done conds => ?_⟩
          have hstep : advance (done, conds) (.text s) = .ok ((if s = "" then [] else [.text s]) ++ done, conds) := by
            by_cases hs : s = "" <;> simp [advance, hs]
          rw [List.foldlM_cons, hstep, List.append_assoc]
          exact hrun _ conds
      | value path => exact ⟨nodes ++ [.value path], fun done conds => by rw [List.append_assoc]; exact hrun _ conds⟩
      | «include» name => exact ⟨nodes ++ [.include name], fun done conds => by rw [List.append_assoc]; exact hrun _ conds⟩
      | ifStart | ifElse | ifEnd => cases ht
  | @cond path a ts _ _ iha ih =>
      obtain ⟨as, ha⟩ := iha
      obtain ⟨nodes, hrun⟩ := ih
      refine ⟨nodes ++ [.cond path as.reverse []], fun done conds => ?_⟩
      refine bind_eq_ok.mpr ⟨_, rfl, ?_⟩
      rw [List.foldlM_append, List.append_assoc]
      refine bind_eq_ok.mpr ⟨_, ha _ _, bind_eq_ok.mpr ⟨_, rfl, ?_⟩⟩
      rw [List.append_nil]
      exact hrun _ conds
  | @condElse path a b ts _ _ _ iha ihb ih =>
      obtain ⟨as, ha⟩ := iha
      obtain ⟨bs, hb⟩ := ihb
      obtain ⟨nodes, hrun⟩ := ih
      refine ⟨nodes ++ [.cond path as.reverse bs.reverse], fun done conds => ?_⟩
      refine bind_eq_ok.mpr ⟨_, rfl, ?_⟩
      rw [List.foldlM_append, List.append_assoc]
      refine bind_eq_ok.mpr ⟨_, ha _ _, bind_eq_ok.mpr ⟨_, rfl, ?_⟩⟩
      rw [List.foldlM_append]
      refine bind_eq_ok.mpr ⟨_, hb _ _, bind_eq_ok.mpr ⟨_, rfl, ?_⟩⟩
      rw [List.append_nil, List.append_nil]
      exact hrun _ conds

mutual
theorem Node.run_tokens : (node : Node) → .text "" ∉ node.tokens → ∀ done conds,
    node.tokens.foldlM advance (done, conds) = .ok (node :: done, conds)
  | .text s, h, done, conds => by
      have hs : s ≠ "" := by simpa [Node.tokens, eq_comm] using h
      simp [Node.tokens, advance, hs]
  | .value _, _, _, _ => rfl
  | .include _, _, _, _ => rfl
  | .cond path onTrue onFalse, h, done, conds => by
      simp only [Node.tokens, List.mem_cons, List.mem_append, not_or] at h
      have ha := run_nodeTokens onTrue h.2.1 [] ({ before := done, path } :: conds)
      refine bind_eq_ok.mpr ⟨_, rfl, ?_⟩
      rw [List.foldlM_append]
      refine bind_eq_ok.mpr ⟨_, ha, ?_⟩
      rw [List.append_nil]
      cases onFalse with
      | nil => simp [advance, OpenCond.close]
      | cons node nodes =>
          have hb := run_nodeTokens (node :: nodes) (by simpa using h.2.2.1) []
            ({ before := done, path, onTrue := some onTrue } :: conds)
          refine bind_eq_ok.mpr ⟨([], { before := done, path, onTrue := some onTrue } :: conds), by simp [advance], ?_⟩
          change List.foldlM advance _ (nodeTokens (node :: nodes) ++ [.ifEnd]) = _
          rw [List.foldlM_append]
          refine bind_eq_ok.mpr ⟨_, hb, ?_⟩
          simp [advance, OpenCond.close]

theorem run_nodeTokens : (nodes : List Node) → .text "" ∉ nodeTokens nodes → ∀ done conds,
    (nodeTokens nodes).foldlM advance (done, conds) = .ok (nodes.reverse ++ done, conds)
  | [], _, _, _ => rfl
  | node :: nodes, h, done, conds => by
      rw [nodeTokens, List.mem_append, not_or] at h
      rw [nodeTokens, List.foldlM_append]
      refine bind_eq_ok.mpr ⟨_, node.run_tokens h.1 done conds, ?_⟩
      rw [run_nodeTokens nodes h.2, List.reverse_cons, List.append_assoc]
      rfl
end

theorem nodeTokens_inj {as bs : List Node} (ha : .text "" ∉ nodeTokens as) (h : nodeTokens as = nodeTokens bs) : as = bs := by
  have hrun := run_nodeTokens bs (h ▸ ha) [] []
  rw [← h, run_nodeTokens as ha] at hrun
  simpa using hrun

theorem dropEmptyElse_sublist (ts : List Token) : (dropEmptyElse ts).Sublist ts := by
  fun_induction dropEmptyElse ts with
  | case1 => exact .slnil
  | case2 ts ih => exact (ih.cons_cons _).cons _
  | case3 t ts _ ih => exact ih.cons_cons _

theorem text_notMem_kept (ts : List Token) : .text "" ∉ dropEmptyElse (dropEmptyTexts ts) := by
  intro h
  have := (dropEmptyElse_sublist _).mem h
  simp [dropEmptyTexts] at this

/-! ## Templates -/

theorem parse_eq_ok {source : String} {nodes : List Node} :
    parse source = .ok nodes ↔ ∃ ts, List.Forall₂ Says (pieces source) ts ∧ Parsed ts nodes := by
  rw [parse, build_eq_ok]
  constructor
  · rintro ⟨ts, hts, done, hrun, rfl⟩
    exact ⟨ts, hts, parsed_of_run hrun⟩
  · rintro ⟨ts, hts, hparsed⟩
    obtain ⟨done, hrun⟩ := hparsed.block.exists_run
    have hrun := hrun [] []
    rw [List.append_nil] at hrun
    -- the given nodes and the ones that are built say the same
    have hdone := parsed_of_run hrun
    refine ⟨ts, hts, done, hrun, nodeTokens_inj ?_ (hdone.tokens.trans hparsed.tokens.symm)⟩
    rw [hdone.tokens]
    exact text_notMem_kept ts

theorem compile_eq_ok {name source : String} {t : Template} :
    compile name source = .ok t ↔ t.name = name ∧ parse source = .ok t.nodes := by
  rw [compile, map_eq_ok]
  constructor
  · rintro ⟨nodes, hparse, rfl⟩
    exact ⟨rfl, hparse⟩
  · rintro ⟨rfl, hparse⟩
    exact ⟨t.nodes, hparse, rfl⟩

/-- The pieces say something each, and all together a block. -/
def InGrammar (ps : List Piece) : Prop :=
  ∃ ts, List.Forall₂ Says ps ts ∧ Block ts

/-- A text is cut in one way. It is a template just if its pieces are of the grammar, and the nodes of the template
are then the only ones that say what the pieces do, empty text and empty second branches aside. A text of any
other kind that is found where a template is looked for is reported, and no template is loaded from it. -/
theorem compile_grammar (name source : String) :
    ∃ ps, (∀ ps', Cut source.toList ps' ↔ ps' = ps) ∧
      ((∃ t, compile name source = .ok t) ↔ InGrammar ps) ∧
      (∀ t, compile name source = .ok t → t.name = name ∧ ∃ ts, List.Forall₂ Says ps ts ∧ Block ts ∧
        ∀ nodes, nodeTokens nodes = dropEmptyElse (dropEmptyTexts ts) ↔ nodes = t.nodes) ∧
      (¬ InGrammar ps → ∀ files roots path, TemplateRoots.read files roots path = .ok (name, source) →
        ∃ e, compile name source = .error e ∧ roots.load files path = .error (.templateSyntax name e)) := by
  have hcompile : (∃ t, compile name source = .ok t) ↔ InGrammar (pieces source) := by
    constructor
    · rintro ⟨t, ht⟩
      obtain ⟨ts, hts, hparsed⟩ := parse_eq_ok.mp (compile_eq_ok.mp ht).2
      exact ⟨ts, hts, hparsed.block⟩
    · rintro ⟨ts, hts, hblock⟩
      obtain ⟨done, hrun⟩ := hblock.exists_run
      have hparsed : Parsed ts (done ++ []).reverse := parsed_of_run (hrun [] [])
      exact ⟨{ name, nodes := _ }, compile_eq_ok.mpr ⟨rfl, parse_eq_ok.mpr ⟨ts, hts, hparsed⟩⟩⟩
  refine ⟨pieces source, fun _ => cut_iff, hcompile, fun t ht => ?_, fun hnot files roots path hread => ?_⟩
  · obtain ⟨hname, hparse⟩ := compile_eq_ok.mp ht
    obtain ⟨ts, hts, hparsed⟩ := parse_eq_ok.mp hparse
    refine ⟨hname, ts, hts, hparsed.block, fun nodes => ⟨fun h => ?_, ?_⟩⟩
    · exact nodeTokens_inj (h ▸ text_notMem_kept ts) (h.trans hparsed.tokens.symm)
    · rintro rfl
      exact hparsed.tokens
  · cases he : compile name source with
    | ok t => exact absurd (hcompile.mp ⟨t, he⟩) hnot
    | error e =>
        refine ⟨e, rfl, ?_⟩
        rw [TemplateRoots.load, hread]
        simp only [bind, Except.bind, he]
        rfl

end ApiManifest.Template
