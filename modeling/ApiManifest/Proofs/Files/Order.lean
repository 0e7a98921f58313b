import ApiManifest.Files.Path

/-!
# The order of paths

Paths are in a total order. Neither of two comes before the other just if they have the same steps.
-/

namespace ApiManifest.Path

namespace Step

theorem before_iff {a b : Step} :
    a.before b = true ↔ a.rank < b.rank ∨ a.rank = b.rank ∧ a.text < b.text := by
  simp [before]

theorem eq_of_rank_text {a b : Step} (hr : a.rank = b.rank) (ht : a.text = b.text) : a = b := by
  cases a <;> cases b <;> simp [rank] at hr <;> simp [text] at ht <;> simp [ht]

theorem before_irrefl (a : Step) : ¬ a.before a = true := by
  simp [before_iff]

theorem before_trans {a b c : Step} (hab : a.before b = true) (hbc : b.before c = true) :
    a.before c = true := by
  rw [before_iff] at hab hbc ⊢
  rcases hab with hab | ⟨hab, tab⟩
  · rcases hbc with hbc | ⟨hbc, _⟩
    · exact Or.inl (Nat.lt_trans hab hbc)
    · exact Or.inl (hbc ▸ hab)
  · rcases hbc with hbc | ⟨hbc, tbc⟩
    · exact Or.inl (hab ▸ hbc)
    · exact Or.inr ⟨hab.trans hbc, String.lt_trans tab tbc⟩

theorem before_total (a b : Step) : a.before b = true ∨ a = b ∨ b.before a = true := by
  simp only [before_iff]
  rcases Nat.lt_trichotomy a.rank b.rank with h | h | h
  · exact Or.inl (Or.inl h)
  · by_cases hab : a.text < b.text
    · exact Or.inl (Or.inr ⟨h, hab⟩)
    · by_cases hba : b.text < a.text
      · exact Or.inr (Or.inr (Or.inr ⟨h.symm, hba⟩))
      · exact Or.inr (Or.inl (eq_of_rank_text h (String.le_antisymm (String.not_lt.mp hba) (String.not_lt.mp hab))))
  · exact Or.inr (Or.inr (Or.inl h))

end Step

theorem stepsLe_cons {a b : Step} {as bs : List Step} :
    stepsLe (a :: as) (b :: bs) = true ↔ a.before b = true ∨ a = b ∧ stepsLe as bs = true := by
  simp [stepsLe]

theorem stepsLe_total (as bs : List Step) : (stepsLe as bs || stepsLe bs as) = true := by
  rw [Bool.or_eq_true]
  induction as generalizing bs with
  | nil => exact Or.inl (by cases bs <;> rfl)
  | cons a as ih =>
      cases bs with
      | nil => exact Or.inr rfl
      | cons b bs =>
          rw [stepsLe_cons, stepsLe_cons]
          rcases Step.before_total a b with h | rfl | h
          · exact Or.inl (Or.inl h)
          · rcases ih bs with h | h
            · exact Or.inl (Or.inr ⟨rfl, h⟩)
            · exact Or.inr (Or.inr ⟨rfl, h⟩)
          · exact Or.inr (Or.inl h)

theorem stepsLe_trans (as bs cs : List Step) (hab : stepsLe as bs = true) (hbc : stepsLe bs cs = true) :
    stepsLe as cs = true := by
  induction as generalizing bs cs with
  | nil => cases cs <;> rfl
  | cons a as ih =>
      rcases bs with _ | ⟨b, bs⟩
      · cases hab
      rcases cs with _ | ⟨c, cs⟩
      · cases hbc
      rw [stepsLe_cons] at hab hbc ⊢
      rcases hab with hab | ⟨rfl, hab⟩
      · rcases hbc with hbc | ⟨rfl, _⟩
        · exact Or.inl (Step.before_trans hab hbc)
        · exact Or.inl hab
      · rcases hbc with hbc | ⟨rfl, hbc⟩
        · exact Or.inl hbc
        · exact Or.inr ⟨rfl, ih bs cs hab hbc⟩

theorem stepsLe_antisymm {as bs : List Step} (hab : stepsLe as bs = true) (hba : stepsLe bs as = true) :
    as = bs := by
  induction as generalizing bs with
  | nil =>
      cases bs with
      | nil => rfl
      | cons b bs => cases hba
  | cons a as ih =>
      cases bs with
      | nil => cases hab
      | cons b bs =>
          rw [stepsLe_cons] at hab hba
          rcases hab with hab | ⟨rfl, hab⟩
          · rcases hba with hba | ⟨rfl, _⟩
            · exact absurd (Step.before_trans hab hba) (Step.before_irrefl a)
            · exact absurd hab (Step.before_irrefl _)
          · rcases hba with hba | ⟨_, hba⟩
            · exact absurd hba (Step.before_irrefl _)
            · rw [ih hab hba]

/-- Paths brought in order are the same paths, step by step, in whatever order they came. -/
theorem sorted_steps_eq {ps qs : List Path} (h : ps.Perm qs) :
    (ps.mergeSort le).map steps = (qs.mergeSort le).map steps := by
  have hsort : ∀ rs : List Path, (rs.mergeSort le).map steps = (rs.map steps).mergeSort stepsLe :=
    fun rs => List.map_mergeSort fun _ _ _ _ => rfl
  have hsorted := List.pairwise_mergeSort stepsLe_trans stepsLe_total
  rw [hsort, hsort]
  refine List.Perm.eq_of_pairwise (fun _ _ _ _ => stepsLe_antisymm) (hsorted _) (hsorted _) ?_
  exact (List.mergeSort_perm _ _).trans ((h.map steps).trans (List.mergeSort_perm _ _).symm)

end ApiManifest.Path
