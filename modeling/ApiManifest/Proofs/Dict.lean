import ApiManifest.Dict
import Mathlib.Data.List.Induction

/-!
# Dictionaries: looking up, setting and the names that are there
-/

namespace ApiManifest

variable {α β : Type}

theorem mem_of_find?_key {κ : Type} [BEq κ] [LawfulBEq κ] {es : List (κ × α)} {key : κ} {v : α}
    (h : (es.find? fun e => e.1 == key).map (·.2) = some v) : (key, v) ∈ es := by
  obtain ⟨e, he, rfl⟩ := Option.map_eq_some_iff.mp h
  have hk := List.find?_some he
  rw [beq_iff_eq] at hk
  subst hk
  exact List.mem_of_find?_eq_some he

namespace Dict

/-! ## Looking up -/

theorem value?_cons (e : String × α) (d : Dict α) (name : String) :
    value? (e :: d) name = if e.1 = name then some e.2 else value? d name := by
  by_cases h : e.1 = name <;> simp [value?, h]

theorem mem_of_value? {d : Dict α} {name : String} {v : α} (h : d.value? name = some v) : (name, v) ∈ d :=
  mem_of_find?_key h

theorem value?_of_mem {d : Dict α} {name : String} {v : α} (hd : d.names.Nodup)
    (h : (name, v) ∈ d) : d.value? name = some v := by
  induction d with
  | nil => cases h
  | cons e d ih =>
      simp only [names, List.map_cons, List.nodup_cons] at hd
      rw [value?_cons]
      rcases List.mem_cons.mp h with rfl | h
      · simp
      · have hne : e.1 ≠ name := by
          rintro rfl
          exact hd.1 (List.mem_map.mpr ⟨_, h, rfl⟩)
        simpa [hne] using ih hd.2 h

theorem value?_eq_none_iff {d : Dict α} {name : String} : d.value? name = none ↔ name ∉ d.names := by
  simp only [value?, names, Option.map_eq_none_iff, List.find?_eq_none, beq_iff_eq, List.mem_map, not_exists, not_and]

theorem has_iff {d : Dict α} {name : String} : d.has name = true ↔ name ∈ d.names := by
  simp [has, names]

theorem value?_map (f : String → α → β) (d : Dict α) (name : String) :
    value? (d.map fun e => (e.1, f e.1 e.2)) name = (d.value? name).map (f name) := by
  induction d with
  | nil => rfl
  | cons e d ih =>
      rw [List.map_cons, value?_cons, value?_cons, ih]
      by_cases h : e.1 = name <;> simp [h]

/-! ## Setting -/

theorem names_set (name : String) (v : α) (d : Dict α) :
    (set name v d).names = if d.has name then d.names else d.names ++ [name] := by
  induction d with
  | nil => rfl
  | cons e d ih =>
      obtain ⟨n, w⟩ := e
      by_cases h : n = name
      · simp [set, has, names, h]
      · have hset : set name v ((n, w) :: d) = (n, w) :: set name v d := by simp [set, h]
        have hhas : has ((n, w) :: d) name = has d name := by simp [has, h]
        simp only [names, hset, hhas, List.map_cons] at ih ⊢
        rw [ih]
        split <;> rfl

theorem set_of_not_has {name : String} {v : α} {d : Dict α} (h : d.has name = false) :
    set name v d = d ++ [(name, v)] := by
  induction d with
  | nil => rfl
  | cons e d ih =>
      obtain ⟨n, w⟩ := e
      simp only [has, List.any_cons, Bool.or_eq_false_iff] at h
      simp [set, h.1, ih h.2]

theorem nodup_names_set {name : String} {v : α} {d : Dict α} (h : d.names.Nodup) :
    (set name v d).names.Nodup := by
  rw [names_set]
  split
  · exact h
  · rename_i hd
    rw [has_iff] at hd
    exact List.nodup_append.mpr ⟨h, by simp, by
      rintro a ha b hb rfl
      exact hd (List.mem_singleton.mp hb ▸ ha)⟩

theorem nodup_names_ofList (entries : List (String × α)) : (ofList entries).names.Nodup := by
  have step : ∀ (es : List (String × α)) (d : Dict α), d.names.Nodup →
      (es.foldl (fun d e => set e.1 e.2 d) d).names.Nodup := by
    intro es
    induction es with
    | nil => intro d h; exact h
    | cons e es ih => intro d h; exact ih _ (nodup_names_set h)
  exact step entries [] List.nodup_nil

theorem mem_of_mem_set {name : String} {v : α} {d : Dict α} {e : String × α} (h : e ∈ set name v d) :
    e = (name, v) ∨ e ∈ d := by
  induction d with
  | nil => exact Or.inl (List.mem_singleton.mp h)
  | cons e' d ih =>
      obtain ⟨n, w⟩ := e'
      simp only [set] at h
      split at h
      · rename_i hn
        rcases List.mem_cons.mp h with rfl | h
        · exact Or.inl (by rw [beq_iff_eq.mp hn])
        · exact Or.inr (List.mem_cons_of_mem _ h)
      · rcases List.mem_cons.mp h with rfl | h
        · exact Or.inr List.mem_cons_self
        · rcases ih h with h | h
          · exact Or.inl h
          · exact Or.inr (List.mem_cons_of_mem _ h)

theorem mem_of_mem_ofList {entries : List (String × α)} {e : String × α} (h : e ∈ ofList entries) :
    e ∈ entries := by
  have step : ∀ (es : List (String × α)) (d : Dict α), e ∈ es.foldl (fun d e => set e.1 e.2 d) d →
      e ∈ d ∨ e ∈ es := by
    intro es
    induction es with
    | nil => exact fun d h => Or.inl h
    | cons e' es ih =>
        intro d h
        rcases ih _ h with h | h
        · rcases mem_of_mem_set h with rfl | h
          · exact Or.inr List.mem_cons_self
          · exact Or.inl h
        · exact Or.inr (List.mem_cons_of_mem _ h)
  rcases step entries [] h with h | h
  · cases h
  · exact h

/-! ## Setting one after another -/

theorem value?_set (name key : String) (v : α) (d : Dict α) :
    value? (set name v d) key = if name = key then some v else d.value? key := by
  induction d with
  | nil => simp [set, value?_cons]
  | cons e d ih =>
      obtain ⟨n, w⟩ := e
      by_cases hn : n = name
      · subst hn
        by_cases hk : n = key <;> simp [set, value?_cons, hk]
      · have hset : set name v ((n, w) :: d) = (n, w) :: set name v d := by simp [set, hn]
        rw [hset, value?_cons, value?_cons, ih]
        by_cases hk : n = key
        · have hne : ¬ name = key := fun h => hn (hk.trans h.symm)
          simp [hk, hne]
        · simp [hk]

theorem ofList_snoc (entries : List (String × α)) (e : String × α) :
    ofList (entries ++ [e]) = set e.1 e.2 (ofList entries) := by
  simp [ofList]

/-- Names stand in the order in which they were first set. -/
theorem names_ofList (entries : List (String × α)) : (ofList entries).names = (entries.map (·.1)).eraseDups := by
  induction entries using List.reverseRecOn with
  | nil => rfl
  | append_singleton entries e ih =>
      rw [ofList_snoc, names_set, List.map_append, List.eraseDups_append, ← ih]
      by_cases he : e.1 ∈ (ofList entries).names
      · have hmem : e.1 ∈ entries.map (·.1) := List.mem_eraseDups.mp (ih ▸ he)
        simp [has_iff.mpr he, List.removeAll, hmem]
      · have hmem : e.1 ∉ entries.map (·.1) := fun h => he (ih ▸ List.mem_eraseDups.mpr h)
        simp [has_iff, he, List.removeAll, hmem, List.eraseDups_cons]

theorem exists_of_value?_ofList {entries : List (String × α)} {name : String} {v : α} (h : (ofList entries).value? name = some v) :
    ∃ before after, entries = before ++ (name, v) :: after ∧ ∀ e ∈ after, e.1 ≠ name := by
  induction entries using List.reverseRecOn with
  | nil => cases h
  | append_singleton entries e ih =>
      rw [ofList_snoc, value?_set] at h
      split at h
      · rename_i he
        cases h
        exact ⟨entries, [], by rw [← he], fun _ hx => nomatch hx⟩
      · rename_i he
        obtain ⟨before, after, rfl, hafter⟩ := ih h
        refine ⟨before, after ++ [e], by simp, fun x hx => ?_⟩
        rcases List.mem_append.mp hx with hx | hx
        · exact hafter x hx
        · rw [List.mem_singleton.mp hx]
          exact he

/-! ## Setting in the order of the names -/

end Dict

end ApiManifest
