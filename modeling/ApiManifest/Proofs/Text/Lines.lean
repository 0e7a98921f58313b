import ApiManifest.Text.Split
import ApiManifest.Proofs.Text.Utf8

/-!
# Lines of bytes and lines of characters

The lines of a text are the same whether its bytes are cut or its characters: a line feed is one byte, and no part of
another character.
-/

namespace ApiManifest.Text

/-! ## Pieces -/

theorem splitOn_ne_nil {α : Type} [BEq α] (sep : α) (as : List α) : splitOn sep as ≠ [] := by
  cases as with
  | nil => exact List.cons_ne_nil _ _
  | cons a as =>
      rw [splitOn]
      split
      · exact List.cons_ne_nil _ _
      · split <;> exact List.cons_ne_nil _ _

section Pieces

variable {α : Type} [BEq α] [LawfulBEq α] {sep : α}

theorem splitOn_of_notMem {as : List α} (h : sep ∉ as) : splitOn sep as = [as] := by
  induction as with
  | nil => rfl
  | cons a as ih =>
      rw [List.mem_cons, not_or] at h
      rw [splitOn, if_neg (by simpa using fun he => h.1 he.symm), ih h.2]

theorem splitOn_append {front : List α} (h : sep ∉ front) (back : List α) :
    splitOn sep (front ++ sep :: back) = front :: splitOn sep back := by
  induction front with
  | nil => simp [splitOn]
  | cons a front ih =>
      rw [List.mem_cons, not_or] at h
      rw [List.cons_append, splitOn, if_neg (by simpa using fun he => h.1 he.symm), ih h.2]

/-- A separator ends the pieces before it, which may be several. -/
theorem splitOn_around (sep : α) (front back : List α) :
    splitOn sep (front ++ sep :: back) = splitOn sep front ++ splitOn sep back := by
  induction front with
  | nil => simp [splitOn]
  | cons a front ih =>
      rw [List.cons_append, splitOn, splitOn, ih]
      cases hfront : splitOn sep front with
      | nil => exact absurd hfront (splitOn_ne_nil sep front)
      | cons piece pieces => split <;> rfl

end Pieces

/-! ## Line feeds -/

namespace Utf8

structure Pending.Sound (p : Pending) : Prop where
  low : 0x80 ≤ p.low.toNat
  bits : 2 ≤ p.bits * 64 + (p.low.toNat - 0x80)
  last : p.left = 1 → 0x80 ≤ p.bits * 64 + (p.low.toNat - 0x80)

theorem none_sound : ∀ q ∈ (none : Option Pending), q.Sound :=
  nofun

theorem ofNat_ne_lineFeed {n : Nat} (h : n ≠ 10) : Char.ofNat n ≠ '\n' := by
  intro he
  by_cases hvalid : n.isValidChar
  · have hn : (Char.ofNat n).toNat = n := by rw [Char.ofNat, dif_pos hvalid]; rfl
    rw [he] at hn
    exact h hn.symm
  · rw [Char.ofNat, dif_neg hvalid] at he
    exact absurd he (by decide)

theorem leading_sound {n : Nat} (h : 0xC2 ≤ n) : (leading n).Sound := by
  unfold leading
  repeat' split
  all_goals
    constructor
    all_goals
      simp
      try omega

theorem start_lineFeed {b : UInt8} (hb : b ≠ 10) : some '\n' ∉ (start b).1 ∧ ∀ q ∈ (start b).2, q.Sound := by
  have hne : b.toNat ≠ 10 := fun h => hb (UInt8.toNat_inj.mp h)
  by_cases hleading : 0xC2 ≤ b.toNat ∧ b.toNat ≤ 0xF4
  · rw [start_leading hleading.1 hleading.2]
    refine ⟨List.not_mem_nil, fun q hq => ?_⟩
    cases hq
    exact leading_sound hleading.1
  · have hone : (start b).2 = none ∧ ((start b).1 = [some (Char.ofNat b.toNat)] ∨ (start b).1 = [none]) := by
      simp only [start, UInt8.lt_iff_toNat_lt, beq_iff_eq, ← UInt8.toNat_inj, UInt8.reduceToNat]
      repeat' split
      all_goals first | omega | simp
    rw [hone.1]
    refine ⟨?_, fun q hq => absurd hq (Option.not_mem_none q)⟩
    rcases hone.2 with h | h <;> rw [h] <;> simp [(ofNat_ne_lineFeed hne).symm]

theorem step_lineFeed {p : Option Pending} (hp : ∀ q ∈ p, q.Sound) {b : UInt8} (hb : b ≠ 10) :
    some '\n' ∉ (step p b).1 ∧ ∀ q ∈ (step p b).2, q.Sound := by
  obtain ⟨hout, hq⟩ := start_lineFeed hb
  cases p with
  | none => exact ⟨hout, hq⟩
  | some p =>
      obtain ⟨hlow, hbits, hlast⟩ := hp p rfl
      simp only [step]
      split
      · rename_i hwithin
        simp only [Bool.and_eq_true, decide_eq_true_eq, UInt8.le_iff_toNat_le] at hwithin
        split
        · rename_i hleft
          have hbits := hlast (by simpa using hleft)
          refine ⟨?_, fun q hq => absurd hq (Option.not_mem_none q)⟩
          simp only [List.mem_singleton, Option.some.injEq]
          exact (ofNat_ne_lineFeed (by omega)).symm
        · refine ⟨List.not_mem_nil, fun q hq => ?_⟩
          rw [Option.mem_some_iff] at hq
          subst hq
          constructor
          all_goals
            simp
            try omega
      · exact ⟨List.not_mem_cons_of_ne_of_not_mem (Option.some_ne_none _) hout, hq⟩

theorem step_ten {p : Option Pending} (hp : ∀ q ∈ p, q.Sound) :
    step p 10 = (decodeFrom p [] ++ [some '\n'], none) := by
  cases p with
  | none => rfl
  | some p =>
      have hlow := (hp p rfl).low
      have hbelow : ¬ p.low ≤ 10 := by
        rw [UInt8.le_iff_toNat_le]
        simp only [UInt8.reduceToNat]
        omega
      simp [step, hbelow, decodeFrom, start]

theorem decodeFrom_cons (p : Option Pending) (b : UInt8) (bs : List UInt8) :
    decodeFrom p (b :: bs) = (step p b).1 ++ decodeFrom (step p b).2 bs :=
  rfl

theorem decodeFrom_append {p : Option Pending} (hp : ∀ q ∈ p, q.Sound) {front : List UInt8} (h : 10 ∉ front)
    (back : List UInt8) :
    decodeFrom p (front ++ 10 :: back) = decodeFrom p front ++ some '\n' :: decodeFrom none back := by
  induction front generalizing p with
  | nil => rw [List.nil_append, decodeFrom_cons, step_ten hp, List.append_assoc, List.singleton_append]
  | cons b front ih =>
      rw [List.mem_cons, not_or] at h
      obtain ⟨_, hq⟩ := step_lineFeed hp (fun he => h.1 he.symm)
      rw [List.cons_append, decodeFrom_cons, decodeFrom_cons, ih hq h.2, List.append_assoc]

theorem notMem_decodeFrom {p : Option Pending} (hp : ∀ q ∈ p, q.Sound) {bytes : List UInt8} (h : 10 ∉ bytes) :
    some '\n' ∉ decodeFrom p bytes := by
  induction bytes generalizing p with
  | nil => cases p <;> simp [decodeFrom]
  | cons b bytes ih =>
      rw [List.mem_cons, not_or] at h
      obtain ⟨hout, hq⟩ := step_lineFeed hp (fun he => h.1 he.symm)
      rw [decodeFrom_cons, List.mem_append]
      exact not_or.mpr ⟨hout, ih hq h.2⟩

theorem decode?_eq_some {bytes : List UInt8} {cs : List Char} :
    decode? bytes = some cs ↔ decode bytes = cs.map some := by
  rw [decode?]
  generalize decode bytes = ds
  induction ds generalizing cs with
  | nil => cases cs <;> simp
  | cons d ds ih =>
      rw [List.mapM_cons]
      cases d with
      | none => cases cs <;> simp
      | some c =>
          simp only [id, Option.bind_eq_bind, Option.bind_some, Option.bind_eq_some_iff, ih, Option.pure_def,
            Option.some.injEq]
          cases cs with
          | nil => simp
          | cons c' cs =>
              simp only [List.cons.injEq, List.map_cons, Option.some.injEq]
              constructor
              · rintro ⟨_, rfl, rfl, rfl⟩
                exact ⟨rfl, rfl⟩
              · rintro ⟨rfl, rfl⟩
                exact ⟨cs, rfl, rfl, rfl⟩

/-- The lines of the bytes, each read on its own, are those of the text. -/
theorem map_splitOn {bytes : List UInt8} {cs : List Char} (h : decode? bytes = some cs) :
    (splitOn 10 bytes).map decodeLossy = splitOn '\n' cs := by
  rw [decode?_eq_some] at h
  have hlossy {bytes : List UInt8} {cs : List Char} (h : decode bytes = cs.map some) : decodeLossy bytes = cs := by
    rw [decodeLossy, h, List.map_map]
    exact List.map_id' cs
  have hnone {bytes : List UInt8} {cs : List Char} (h : decode bytes = cs.map some) (hbytes : 10 ∉ bytes) :
      '\n' ∉ cs := by
    intro hmem
    have hdecoded : some '\n' ∉ decodeFrom none bytes := notMem_decodeFrom none_sound hbytes
    rw [show decodeFrom none bytes = _ from h] at hdecoded
    exact hdecoded (List.mem_map_of_mem hmem)
  induction hn : bytes.length using Nat.strongRecOn generalizing bytes cs with
  | ind n ih =>
      by_cases hmem : 10 ∈ bytes
      · obtain ⟨front, back, rfl, hfront⟩ := List.eq_append_cons_of_mem hmem
        rw [decode, decodeFrom_append none_sound hfront] at h
        obtain ⟨cs₁, cs₃, rfl, h₁, h₃⟩ := List.map_eq_append_iff.mp h.symm
        obtain ⟨c, cs₂, rfl, hc, h₂⟩ := List.map_eq_cons_iff.mp h₃
        cases hc
        rw [splitOn_append hfront, splitOn_append (hnone h₁.symm hfront), List.map_cons, hlossy h₁.symm]
        rw [ih back.length (by rw [← hn, List.length_append, List.length_cons]; omega) h₂.symm rfl]
      · rw [splitOn_of_notMem hmem, splitOn_of_notMem (hnone h hmem), List.map_singleton, hlossy h]

end Utf8

end ApiManifest.Text
