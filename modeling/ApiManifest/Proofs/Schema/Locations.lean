import ApiManifest.Proofs.Dict
import ApiManifest.Schema.Basic
import Mathlib.Logic.Basic

/-!
# Locations of resolvers

Which resolvers a schema declares and where, and that each of them is found where it is declared.
-/

namespace ApiManifest.Schema

theorem operationResolvers_eq_zipIdx (place : Nat → Location) (os : List Operation) (index : Nat) :
    operationResolvers place index os =
      (os.zipIdx index).filterMap fun e => e.1.resolver.map fun r => (place e.2, r) := by
  induction os generalizing index with
  | nil => rfl
  | cons o os ih => cases h : o.resolver <;> simp [operationResolvers, h, ih]

theorem fieldResolvers_eq_zipIdx (object : String) (fs : List Field) (index : Nat) :
    fieldResolvers object index fs =
      (fs.zipIdx index).filterMap fun e => e.1.resolver.map fun r => (.field object e.2, r) := by
  induction fs generalizing index with
  | nil => rfl
  | cons f fs ih => cases h : f.resolver <;> simp [fieldResolvers, h, ih]

theorem mem_zipIdx_resolvers {β : Type} {resolver : β → Option Resolver} {place : Nat → Location}
    {bs : List β} {x : Location × Resolver} :
    (x ∈ bs.zipIdx.filterMap fun e => (resolver e.1).map fun r => (place e.2, r)) ↔
      ∃ i b, bs[i]? = some b ∧ resolver b = some x.2 ∧ x.1 = place i := by
  simp only [List.mem_filterMap, List.mem_zipIdx_iff_getElem?, Option.map_eq_some_iff]
  constructor
  · rintro ⟨⟨b, i⟩, hb, r, hr, rfl⟩
    exact ⟨i, b, hb, hr, rfl⟩
  · rintro ⟨i, b, hb, hr, hl⟩
    exact ⟨(b, i), hb, x.2, hr, Prod.ext hl.symm rfl⟩

theorem mem_resolvers {s : Schema} {l : Location} {r : Resolver} :
    (l, r) ∈ s.resolvers ↔
      (∃ i o, s.queries[i]? = some o ∧ o.resolver = some r ∧ l = .query i) ∨
      (∃ i o, s.mutations[i]? = some o ∧ o.resolver = some r ∧ l = .mutation i) ∨
      ∃ e ∈ s.objects, ∃ i f, e.2.fields[i]? = some f ∧ f.resolver = some r ∧ l = .field e.2.name i := by
  simp only [resolvers, List.mem_append, List.mem_flatMap, Dict.values, operationResolvers_eq_zipIdx,
    fieldResolvers_eq_zipIdx, mem_zipIdx_resolvers, or_assoc, List.mem_map,
    exists_exists_and_eq_and]

/-- A resolver is found at its location, where no two objects share a name and each goes by its own. -/
theorem resolverAt?_eq_some {s : Schema} (hd : s.objects.names.Nodup)
    (hn : ∀ e ∈ s.objects, e.2.name = e.1) {l : Location} {r : Resolver} :
    s.resolverAt? l = some r ↔ (l, r) ∈ s.resolvers := by
  rw [mem_resolvers]
  cases l with
  | query i =>
      simp only [resolverAt?, Option.bind_eq_some_iff]
      constructor
      · rintro ⟨o, ho, hr⟩
        exact Or.inl ⟨i, o, ho, hr, rfl⟩
      · rintro (⟨_, o, ho, hr, h⟩ | ⟨_, _, _, _, h⟩ | ⟨_, _, _, _, _, _, h⟩)
        · cases h
          exact ⟨o, ho, hr⟩
        · cases h
        · cases h
  | mutation i =>
      simp only [resolverAt?, Option.bind_eq_some_iff]
      constructor
      · rintro ⟨o, ho, hr⟩
        exact Or.inr (Or.inl ⟨i, o, ho, hr, rfl⟩)
      · rintro (⟨_, _, _, _, h⟩ | ⟨_, o, ho, hr, h⟩ | ⟨_, _, _, _, _, _, h⟩)
        · cases h
        · cases h
          exact ⟨o, ho, hr⟩
        · cases h
  | field object i =>
      simp only [resolverAt?, Option.bind_eq_some_iff]
      constructor
      · rintro ⟨o, ho, f, hf, hr⟩
        have hm := Dict.mem_of_value? ho
        exact Or.inr (Or.inr ⟨_, hm, i, f, hf, hr, by rw [hn _ hm]⟩)
      · rintro (⟨_, _, _, _, h⟩ | ⟨_, _, _, _, h⟩ | ⟨e, he, j, f, hf, hr, h⟩)
        · cases h
        · cases h
        · cases h
          exact ⟨e.2, Dict.value?_of_mem hd (by rw [hn e he]; exact he), f, hf, hr⟩

end ApiManifest.Schema
