import ApiManifest.Proofs.Yaml.Reader
import ApiManifest.Proofs.Yaml.Tokens

/-!
# An entry in a stream

The entry of a version's line is found in the document of every stream that holds one document, or a part of the
document is beyond the limits and cannot be read.
-/

namespace ApiManifest.Yaml

/-- Somewhere the document cannot be read, or a key that is no other scalar than `t` has the plain value `x`. -/
inductive Node.Holds (t x : String) : Node → Prop where
  | unreadable : Holds t x .unreadable
  | entry {tag : Option Tag} {entries : List (Node × Node)} {k : Node} :
      (∀ s, k = .scalar s → s.text = t) → (k, .scalar { text := x }) ∈ entries → Holds t x (.mapping tag entries)
  | key {tag : Option Tag} {entries : List (Node × Node)} {k v : Node} :
      Holds t x k → (k, v) ∈ entries → Holds t x (.mapping tag entries)
  | value {tag : Option Tag} {entries : List (Node × Node)} {k v : Node} :
      Holds t x v → (k, v) ∈ entries → Holds t x (.mapping tag entries)
  | item {tag : Option Tag} {items : List Node} {n : Node} :
      Holds t x n → n ∈ items → Holds t x (.sequence tag items)

namespace Draft

variable {t x : String} {d : Draft}

theorem mem_mapM {σ α β : Type} {f : α → StateM σ β} {as : List α} {a : α} (ha : a ∈ as) (s : σ) :
    ∃ s', (f a s').1 ∈ (as.mapM f s).1 := by
  induction as generalizing s with
  | nil => cases ha
  | cons a' as ih =>
      rw [List.mapM_cons]
      rcases List.mem_cons.mp ha with rfl | ha
      · exact ⟨s, List.mem_cons_self⟩
      · obtain ⟨s', hs'⟩ := ih ha (f a' s).2
        exact ⟨s', List.mem_cons_of_mem _ hs'⟩

theorem expand_scalar (anchors : List (Nat × Draft)) (depth left : Nat) (anchor : Option Nat) (s : Scalar) :
    expand anchors depth (.scalar anchor s) left = (.scalar s, left) := by
  cases depth <;> rw [expand] <;> rfl

theorem expand_sequence (anchors : List (Nat × Draft)) (depth left : Nat) (anchor : Option Nat) (tag : Option Tag)
    (items : List Draft) :
    (expand anchors depth (.sequence anchor tag items) left).1 = .unreadable ∨
      ∃ inner ns, (expand anchors depth (.sequence anchor tag items) left).1 = .sequence tag ns ∧
        ∀ d ∈ items, ∃ s, (d.expand anchors inner s).1 ∈ ns := by
  cases depth with
  | zero => exact .inl (by rw [expand]; rfl)
  | succ depth => exact .inr ⟨depth, _, by rw [expand]; rfl, fun d hd => mem_mapM hd left⟩

theorem expand_mapping (anchors : List (Nat × Draft)) (depth left : Nat) (anchor : Option Nat) (tag : Option Tag)
    (entries : List (Draft × Draft)) :
    (expand anchors depth (.mapping anchor tag entries) left).1 = .unreadable ∨
      ∃ inner es, (expand anchors depth (.mapping anchor tag entries) left).1 = .mapping tag es ∧
        ∀ e ∈ entries, ∃ s s', ((e.1.expand anchors inner s).1, (e.2.expand anchors inner s').1) ∈ es := by
  cases depth with
  | zero => exact .inl (by rw [expand]; rfl)
  | succ depth =>
      refine .inr ⟨depth, _, by rw [expand]; rfl, fun e he => ?_⟩
      obtain ⟨s, hs⟩ := mem_mapM he left
      exact ⟨s, _, hs⟩

theorem EndsWith.expand (h : d.EndsWith t) (anchors : List (Nat × Draft)) (depth left : Nat) (s : Scalar)
    (hs : (d.expand anchors depth left).1 = .scalar s) : s.text = t := by
  cases h with
  | scalar ht =>
      rw [expand_scalar] at hs
      cases hs
      exact ht
  | sequence =>
      rcases expand_sequence anchors depth left _ _ _ with h | ⟨_, _, h, _⟩ <;> rw [h] at hs <;> cases hs
  | mapping =>
      rcases expand_mapping anchors depth left _ _ _ with h | ⟨_, _, h, _⟩ <;> rw [h] at hs <;> cases hs

/-- No entry is lost when aliases are replaced. -/
theorem HasEntry.expand (h : d.HasEntry t x) (anchors : List (Nat × Draft)) (depth left : Nat) :
    (d.expand anchors depth left).1.Holds t x := by
  induction h generalizing depth left with
  | entry hk hmem =>
      rcases expand_mapping anchors depth left _ _ _ with h | ⟨inner, es, h, hes⟩ <;> rw [h]
      · exact .unreadable
      · obtain ⟨s, s', he⟩ := hes _ hmem
        rw [expand_scalar] at he
        exact .entry (hk.expand anchors inner s) he
  | key _ hmem ih =>
      rcases expand_mapping anchors depth left _ _ _ with h | ⟨inner, es, h, hes⟩ <;> rw [h]
      · exact .unreadable
      · obtain ⟨s, _, he⟩ := hes _ hmem
        exact .key (ih inner s) he
  | value _ hmem ih =>
      rcases expand_mapping anchors depth left _ _ _ with h | ⟨inner, es, h, hes⟩ <;> rw [h]
      · exact .unreadable
      · obtain ⟨_, s', he⟩ := hes _ hmem
        exact .value (ih inner s') he
  | item _ hmem ih =>
      rcases expand_sequence anchors depth left _ _ _ with h | ⟨inner, ns, h, hns⟩ <;> rw [h]
      · exact .unreadable
      · obtain ⟨s, hs⟩ := hns _ hmem
        exact .item (ih inner s) hs

end Draft

theorem Stream.ofChars_eq {cs : List Char} (h : cs.all isPrintable = true) :
    (∃ anchors depth left, (ofChars cs).document =
        ((Read.firstDocument { tokens := tokens cs }).1.expand anchors depth left).1) ∧
      (ofChars cs).continues =
        (((Read.firstDocument { tokens := tokens cs }).2.tokens.dropWhile (· == .documentEnd)).head? !=
          some .streamEnd) := by
  rw [ofChars, if_pos h, StateT.run]
  generalize Read.firstDocument { tokens := tokens cs } = read
  exact ⟨⟨_, _, _, rfl⟩, rfl⟩

/-- A stream of one document holds the entry of its version's line. -/
theorem Stream.holds_versionLine {blanks digits back cs : List Char} (hblanks : ∀ b ∈ blanks, b = ' ')
    (hdigits : ∀ d ∈ digits, d.isDigit = true) (hback : back.head?.any Text.isDecimalDigit = false)
    (hline : Cursor.Toward (versionLine (blanks ++ 'v' :: digits ++ back)) { rest := cs })
    (hquotes : ¬ InQuotes cs (versionLine (blanks ++ 'v' :: digits ++ back))) (hend : (ofChars cs).continues = false) :
    ∃ t x tail, versionWord <:+ t.toList ∧ x.toList = 'v' :: digits ++ tail ∧
      tail.head?.any Text.isDecimalDigit = false ∧ (ofChars cs).document.Holds t x := by
  by_cases hprintable : cs.all isPrintable = true
  · obtain ⟨⟨anchors, depth, left, hdocument⟩, hcontinues⟩ := ofChars_eq hprintable
    have hread : ((Read.firstDocument { tokens := tokens cs }).2.tokens.dropWhile (· == .documentEnd)).head? =
        some .streamEnd := bne_eq_false_iff_eq.mp (hcontinues.symm.trans hend)
    have hmem : .streamEnd ∈ tokens cs := by
      have hshrinks := (@Read.leads_firstDocument "" "" []).shrinks { tokens := tokens cs }
      exact hshrinks.subset ((List.dropWhile_suffix _).subset (List.mem_of_head? hread))
    obtain ⟨front, ts, ⟨t, x, tail, ht, rfl, hx, htail⟩, hfront, back, hback⟩ :=
      tokens_versionLine hblanks hdigits hback hline hquotes hmem
    have hahead : Read.Ahead t x back (tokens cs) := ⟨front, by rw [← hback]; simp, hfront⟩
    refine ⟨t, x, tail, ht, hx, htail, ?_⟩
    rw [hdocument]
    exact (Read.hasEntry_firstDocument hahead hread).expand anchors depth left
  · rw [ofChars, if_neg hprintable] at hend
    cases hend

end ApiManifest.Yaml
