import ApiManifest.Proofs.Template.Grammar
import ApiManifest.Template.Printer

/-!
# Reading back what has been written

The text of nodes is parsed to these nodes again, if their texts hold no braces that could be taken for a tag and
no two texts stand side by side.
-/

namespace ApiManifest.Template

open Text

/-! ## Texts -/

/-- Is every opening brace followed by something that is not another one? -/
def isQuiet : List Char → Bool
  | [] => true
  | c :: cs => (c ≠ '{' || cs.head?.any (· ≠ '{')) && isQuiet cs

theorem isQuiet_append {as bs : List Char} (ha : isQuiet as = true) (hb : isQuiet bs = true) :
    isQuiet (as ++ bs) = true := by
  induction as with
  | nil => exact hb
  | cons a as ih =>
      simp only [isQuiet, Bool.and_eq_true] at ha
      rw [List.cons_append, isQuiet, ih ha.2, Bool.and_true]
      cases as with
      | nil => simpa using Or.inl ha.1
      | cons a' as => exact ha.1

theorem noTagWithin_of_isQuiet {cs : List Char} (h : isQuiet cs = true) (rest : List Char) : NoTagWithin cs rest := by
  induction cs with
  | nil => exact noTagWithin_nil rest
  | cons c cs ih =>
      simp only [isQuiet, Bool.and_eq_true] at h
      refine noTagWithin_cons.mpr ⟨?_, ih h.2⟩
      unfold openTag
      split
      · rename_i heq
        cases cs with
        | nil =>
            cases heq
            simp at h
        | cons d cs =>
            cases heq
            simp at h
      · rfl

theorem closed_of_isQuiet {cs : List Char} (h : isQuiet cs = true) : ¬ ['{', '{'] <:+: cs := by
  induction cs with
  | nil => simp
  | cons c cs ih =>
      simp only [isQuiet, Bool.and_eq_true] at h
      rw [List.infix_cons_iff]
      rintro (⟨rest, heq⟩ | hcs)
      · cases heq
        simp at h
      · exact ih h.2 hcs

structure Plain (s : String) : Prop where
  ne : s ≠ ""
  quiet : isQuiet s.toList = true

theorem Plain.append {s t : String} (hs : Plain s) (ht : Plain t) : Plain (s ++ t) where
  ne h := hs.ne (String.append_eq_empty_iff.mp h).1
  quiet := by
    rw [String.toList_append]
    exact isQuiet_append hs.quiet ht.quiet

theorem plain_ofList {cs : List Char} (h : cs ≠ [] ∧ isQuiet cs = true) : Plain (String.ofList cs) where
  ne he := h.1 (String.ofList_eq_empty_iff.mp he)
  quiet := by
    rw [String.toList_ofList]
    exact h.2

/-! ## Tags -/

/-- The tags that can be read: paths and names are dotted, and no value goes by the name of a mark. -/
inductive Token.IsTag : Token → Prop where
  | value {path} (h : IsPath path.toList) (hne : path ≠ "else") : IsTag (.value path)
  | include {name} (h : IsPath name.toList) : IsTag (.include name)
  | ifStart {path} (h : IsPath path.toList) : IsTag (.ifStart path)
  | ifElse : IsTag .ifElse
  | ifEnd : IsTag .ifEnd

def Token.piece : Token → Piece
  | .text s => .text s.toList
  | .value path => .tag (' ' :: path.toList ++ [' '])
  | .include name => .tag ('>' :: ' ' :: name.toList ++ [' '])
  | .ifStart path => .tag ('#' :: 'i' :: 'f' :: ' ' :: path.toList)
  | .ifElse => .tag ['e', 'l', 's', 'e']
  | .ifEnd => .tag ['/', 'i', 'f']

def Piece.chars : Piece → List Char
  | .text cs => cs
  | .tag inner => tagChars inner

def Inside (cs : List Char) : Prop :=
  ∀ c ∈ cs, c ≠ '\n' ∧ c ≠ '}'

theorem Inside.append {as bs : List Char} (ha : Inside as) (hb : Inside bs) : Inside (as ++ bs) :=
  List.forall_mem_append.mpr ⟨ha, hb⟩

theorem inside_of_isPath {cs : List Char} (h : IsPath cs) : Inside cs := by
  intro c hc
  have hn := h.toNat c hc
  constructor <;> rintro rfl <;> simp at hn

theorem closeTag_append {inner rest : List Char} (h : Inside inner) :
    closeTag (inner ++ '}' :: '}' :: rest) = some (inner, rest) := by
  induction inner with
  | nil => rfl
  | cons c cs ih =>
      obtain ⟨hc, hcs⟩ := List.forall_mem_cons.mp h
      rw [List.cons_append]
      unfold closeTag
      split
      · rename_i heq
        cases heq
      · rename_i heq
        exact absurd (List.cons.inj heq).1 hc.2
      · rename_i heq
        cases heq
        rw [if_neg hc.1, ih hcs]
        rfl

theorem openTag_append {inner rest : List Char} (h : Inside inner) :
    openTag (tagChars inner ++ rest) = some (inner, rest) := by
  have heq : tagChars inner ++ rest = '{' :: '{' :: (inner ++ '}' :: '}' :: rest) := by simp [tagChars]
  rw [heq]
  exact closeTag_append h

theorem Token.IsTag.exists_inner {t : Token} (h : t.IsTag) :
    ∃ inner, t.piece = .tag inner ∧ Says (.tag inner) t ∧ Inside inner := by
  have hblank : Blank [' '] := by simp [Blank, isBlank]
  have hinside : Inside [' '] := by simp [Inside]
  cases h with
  | @value path h hne =>
      have hne' : path.toList ≠ ['e', 'l', 's', 'e'] := fun he => hne (String.toList_inj.mp he)
      refine ⟨_, rfl, ?_, (hinside.append (inside_of_isPath h)).append hinside⟩
      simpa using Says.value hblank hblank h hne'
  | @«include» name h =>
      have hmark : Inside ['>', ' '] := by simp [Inside]
      refine ⟨_, rfl, ?_, (hmark.append (inside_of_isPath h)).append hinside⟩
      simpa using Says.include blank_nil hblank hblank h
  | @ifStart path h =>
      have hmark : Inside ['#', 'i', 'f', ' '] := by simp [Inside]
      refine ⟨_, rfl, ?_, hmark.append (inside_of_isPath h)⟩
      simpa using Says.ifStart blank_nil hblank blank_nil h
  | ifElse => exact ⟨_, rfl, .ifElse blank_nil blank_nil, by simp [Inside]⟩
  | ifEnd => exact ⟨_, rfl, .ifEnd blank_nil blank_nil, by simp [Inside]⟩

/-! ## Tokens one after another -/

def tokenChars (ts : List Token) : List Char :=
  ts.flatMap fun t => t.piece.chars

/-- Tokens that can be told apart when they are written one after another. -/
inductive Legible : List Token → Prop where
  | nil : Legible []
  | text {s} (hs : Plain s) : Legible [.text s]
  | tag {t ts} (ht : t.IsTag) (h : Legible ts) : Legible (t :: ts)
  | textTag {s t ts} (hs : Plain s) (ht : t.IsTag) (h : Legible ts) : Legible (.text s :: t :: ts)

theorem tokenChars_nil : tokenChars [] = [] :=
  rfl

theorem tokenChars_cons (t : Token) (ts : List Token) : tokenChars (t :: ts) = t.piece.chars ++ tokenChars ts :=
  rfl

theorem tokenChars_append (ts us : List Token) : tokenChars (ts ++ us) = tokenChars ts ++ tokenChars us :=
  List.flatMap_append

theorem piecesFrom_quiet {cs : List Char} (h : isQuiet cs = true) : piecesFrom 0 [] cs = [.text cs] := by
  have hpieces : piecesFrom 0 [] (cs ++ []) = piecesFrom 0 (cs.reverse ++ []) [] :=
    piecesFrom_append (noTagWithin_of_isQuiet h [])
  simpa [piecesFrom] using hpieces

theorem piecesFrom_quiet_tag {cs inner rest : List Char} (h : isQuiet cs = true) (hinner : Inside inner) :
    piecesFrom 0 [] (cs ++ (tagChars inner ++ rest)) = .text cs :: .tag inner :: piecesFrom 0 [] rest := by
  rw [piecesFrom_append (noTagWithin_of_isQuiet h _), piecesFrom_tag (openTag_append hinner), List.append_nil,
    List.reverse_reverse]

namespace Legible

variable {ts : List Token}

theorem exists_says (h : Legible ts) :
    ∃ ts', List.Forall₂ Says (piecesFrom 0 [] (tokenChars ts)) ts' ∧ dropEmptyTexts ts' = ts := by
  have hempty : Says (.text []) (.text "") := .text (by simp)
  have htext {s : String} (hs : Plain s) : Says (.text s.toList) (.text s) := by
    simpa using Says.text (closed_of_isQuiet hs.quiet)
  induction h with
  | nil => exact ⟨[.text ""], .cons hempty .nil, rfl⟩
  | @text s hs =>
      refine ⟨[.text s], ?_, by simp [dropEmptyTexts, hs.ne]⟩
      rw [tokenChars_cons, Token.piece, Piece.chars, tokenChars, List.flatMap_nil, List.append_nil,
        piecesFrom_quiet hs.quiet]
      exact .cons (htext hs) .nil
  | @tag t ts ht _ ih =>
      obtain ⟨ts', hsays, hkept⟩ := ih
      obtain ⟨inner, hpiece, ht', hinner⟩ := ht.exists_inner
      refine ⟨.text "" :: t :: ts', ?_, ?_⟩
      · rw [tokenChars_cons, hpiece, Piece.chars, ← List.nil_append (tagChars inner ++ _),
          piecesFrom_quiet_tag rfl hinner]
        exact .cons hempty (.cons ht' hsays)
      · rw [← hkept]
        cases ht <;> simp [dropEmptyTexts]
  | @textTag s t ts hs ht _ ih =>
      obtain ⟨ts', hsays, hkept⟩ := ih
      obtain ⟨inner, hpiece, ht', hinner⟩ := ht.exists_inner
      refine ⟨.text s :: t :: ts', ?_, ?_⟩
      · rw [tokenChars_cons, tokenChars_cons, hpiece, Token.piece, Piece.chars, Piece.chars,
          piecesFrom_quiet_tag hs.quiet hinner]
        exact .cons (htext hs) (.cons ht' hsays)
      · rw [← hkept]
        cases ht <;> simp [dropEmptyTexts, hs.ne]

theorem text_notMem (h : Legible ts) : .text "" ∉ ts := by
  obtain ⟨ts', _, rfl⟩ := h.exists_says
  simp [dropEmptyTexts]

end Legible

theorem run_dropEmptyTexts {ts : List Token} (state : List Node × List OpenCond) :
    (dropEmptyTexts ts).foldlM advance state = ts.foldlM advance state := by
  induction ts generalizing state with
  | nil => rfl
  | cons t ts ih =>
      by_cases ht : t = .text ""
      · subst ht
        exact ih state
      · have hkept : dropEmptyTexts (t :: ts) = t :: dropEmptyTexts ts := by simp [dropEmptyTexts, ht]
        simp only [hkept, List.foldlM_cons, ih]

/-! ## Nodes -/

theorem toList_braced (inner : String) : (braced inner).toList = tagChars inner.toList := by
  simp [braced, tagChars]

mutual
theorem Node.toList_print : (node : Node) → node.print.toList = tokenChars node.tokens
  | .text s => by simp [Node.print, Node.tokens, tokenChars, Token.piece, Piece.chars]
  | .value path => by simp [Node.print, Node.tokens, tokenChars, Token.piece, Piece.chars, toList_braced]
  | .include name => by simp [Node.print, Node.tokens, tokenChars, Token.piece, Piece.chars, toList_braced]
  | .cond path onTrue onFalse => by
      have htrue := toList_printNodes onTrue
      have hfalse := toList_printNodes onFalse
      simp only [Node.print, Node.tokens, String.toList_append, toList_braced, htrue, tokenChars_append, tokenChars_cons]
      cases onFalse with
      | nil => simp [tokenChars_nil, Token.piece, Piece.chars]
      | cons node nodes => simp [tokenChars_nil, tokenChars_cons, Token.piece, Piece.chars, toList_braced, hfalse]

theorem toList_printNodes : (nodes : List Node) → (printNodes nodes).toList = tokenChars (nodeTokens nodes)
  | [] => by rfl
  | node :: nodes => by
      rw [printNodes, String.toList_append, node.toList_print, toList_printNodes nodes, nodeTokens, tokenChars_append]
end

/-- What is written for nodes is parsed to them. -/
theorem parse_printNodes {nodes : List Node} (h : Legible (nodeTokens nodes)) : parse (printNodes nodes) = .ok nodes := by
  obtain ⟨ts, hsays, hkept⟩ := h.exists_says
  have hrun := run_nodeTokens nodes h.text_notMem [] []
  rw [← hkept, run_dropEmptyTexts] at hrun
  rw [parse, pieces, toList_printNodes]
  exact build_eq_ok.mpr ⟨ts, hsays, _, hrun, by simp⟩

end ApiManifest.Template
