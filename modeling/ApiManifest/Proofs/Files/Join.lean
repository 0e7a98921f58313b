import ApiManifest.Files.Path

/-!
# Joined paths

A relative path stands below what it is joined to: it is relative together with it, and no other one leads there.
-/

namespace ApiManifest.Path

theorem isAbsolute_ofList_cons {c : Char} {cs : List Char} (h : c ≠ '/') :
    isAbsolute (String.ofList (c :: cs)) = false := by
  simp only [isAbsolute, String.toList_ofList, List.head?_cons, Option.some_beq_some, beq_eq_false_iff_ne, ne_eq, h,
    not_false_eq_true]

theorem isAbsolute_append (p q : Path) : isAbsolute (p ++ q) = if p = "" then isAbsolute q else isAbsolute p := by
  rw [isAbsolute, String.toList_append, List.head?_append]
  split
  · rename_i hp
    subst hp
    rfl
  · rename_i hp
    obtain ⟨c, cs, hcs⟩ := List.exists_cons_of_ne_nil (mt String.toList_eq_nil_iff.mp hp)
    rw [isAbsolute, hcs]
    rfl

variable {root p q : Path}

theorem isAbsolute_join (hp : p.isAbsolute = false) (hq : q.isAbsolute = false) : (p.join q).isAbsolute = false := by
  simp only [join, hq, Bool.false_eq_true, if_false]
  split
  · simp only [isAbsolute_append, hp, hq, ite_self]
  · rename_i h
    have hne : p ≠ "" := by
      rintro rfl
      exact h rfl
    simp only [String.append_assoc, isAbsolute_append p, hne, hp, if_false]

theorem join_inj (hp : p.isAbsolute = false) (hq : q.isAbsolute = false) : root.join p = root.join q ↔ p = q := by
  simp only [join, hp, hq, Bool.false_eq_true, if_false]
  split <;> simp only [String.append_right_inj]

end ApiManifest.Path
