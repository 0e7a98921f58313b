import ApiManifest.Proofs.Lists

/-!
# First uses

What the elements of a list call for by their keys, each key once, at the first element that has it.
-/

namespace ApiManifest

variable {α β κ : Type}

/-- What the keys of a list make, in the order of the first elements that have them. -/
def firstUses [BEq κ] (key : α → Option κ) (make : κ → Option β) (xs : List α) : List β :=
  (xs.filterMap key).eraseDups.filterMap make

variable [BEq κ] [LawfulBEq κ] {key : α → Option κ} {make : κ → Option β}

theorem mem_firstUses {xs : List α} {b : β} :
    b ∈ firstUses key make xs ↔ ∃ x ∈ xs, ∃ k, key x = some k ∧ make k = some b := by
  simp only [firstUses, List.mem_filterMap, List.mem_eraseDups]
  constructor
  · rintro ⟨k, ⟨x, hx, hk⟩, hb⟩
    exact ⟨x, hx, k, hk, hb⟩
  · rintro ⟨x, hx, k, hk, hb⟩
    exact ⟨k, ⟨x, hx, hk⟩, hb⟩

omit [LawfulBEq κ] in
theorem firstUses_snoc_none {xs : List α} {x : α} (h : key x = none) :
    firstUses key make (xs ++ [x]) = firstUses key make xs := by
  simp [firstUses, List.filterMap_append, h]

theorem firstUses_snoc_old {xs : List α} {x : α} {k : κ} (h : key x = some k)
    (hk : k ∈ xs.filterMap key ∨ make k = none) :
    firstUses key make (xs ++ [x]) = firstUses key make xs := by
  simp only [firstUses, List.filterMap_append, List.filterMap_cons, h, List.filterMap_nil,
    List.eraseDups_append, List.append_right_eq_self, List.removeAll, List.filter_cons]
  rcases hk with hk | hk
  · simp [hk]
  · split <;> simp [hk, List.eraseDups_cons]

theorem firstUses_snoc_new {xs : List α} {x : α} {k : κ} {b : β} (h : key x = some k)
    (hk : k ∉ xs.filterMap key) (hb : make k = some b) :
    firstUses key make (xs ++ [x]) = firstUses key make xs ++ [b] := by
  simp [firstUses, List.filterMap_append, h, List.eraseDups_append, List.removeAll,
    hk, List.eraseDups_cons, hb]

theorem nodup_map_firstUses {γ : Type} (name : β → γ) (xs : List α)
    (h : ∀ k k' b b', make k = some b → make k' = some b' → name b = name b' → k = k') :
    ((firstUses key make xs).map name).Nodup := by
  have hd := nodup_eraseDups (xs.filterMap key)
  unfold firstUses
  generalize (xs.filterMap key).eraseDups = ks at hd
  induction ks with
  | nil => exact List.nodup_nil
  | cons k ks ih =>
      rw [List.nodup_cons] at hd
      cases hk : make k with
      | none => simpa [hk] using ih hd.2
      | some b =>
          simp only [List.filterMap_cons, hk, List.map_cons, List.nodup_cons]
          refine ⟨?_, ih hd.2⟩
          intro hb
          obtain ⟨b', hb', hn⟩ := List.mem_map.mp hb
          obtain ⟨k', hk', hm⟩ := List.mem_filterMap.mp hb'
          exact hd.1 (h _ _ _ _ hk hm hn.symm ▸ hk')

example : firstUses (fun n => if n < 5 then some n else none) some [2, 7, 1, 2] = [2, 1] := by
  decide

end ApiManifest
