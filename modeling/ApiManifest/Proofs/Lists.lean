import Mathlib.Data.List.Forall2
import Mathlib.Data.List.Infix
import Mathlib.Data.List.InsertIdx
import Mathlib.Data.List.TakeWhile

/-!
# Lists

Facts about lists that say nothing of the things in them: runs of elements, what is found first or last, and two
lists side by side.
-/

namespace ApiManifest

section

variable {α : Type} {p q : α → Bool} {a : α} {as front back : List α}

/-! ## Runs -/

/-- All that belongs to a run is taken, and nothing more. -/
theorem takeWhile_append_stop (hfront : ∀ a ∈ front, p a = true) (hback : ∀ a ∈ back.head?, p a = false) :
    (front ++ back).takeWhile p = front := by
  rw [List.takeWhile_append_of_pos hfront]
  cases back with
  | nil => simp
  | cons a back => simp [hback a rfl]

theorem dropWhile_append_stop (hfront : ∀ a ∈ front, p a = true) (hback : ∀ a ∈ back.head?, p a = false) :
    (front ++ back).dropWhile p = back := by
  rw [List.dropWhile_append_of_pos hfront]
  cases back with
  | nil => rfl
  | cons a back => simp [hback a rfl]

theorem take_length_takeWhile (p : α → Bool) (as : List α) : as.take (as.takeWhile p).length = as.takeWhile p :=
  (List.prefix_iff_eq_take.mp (List.takeWhile_prefix p)).symm

theorem notMem_takeWhile (h : p a = false) : a ∉ as.takeWhile p :=
  fun ha => by simp [List.mem_takeWhile_imp ha] at h

theorem dropWhile_stops (h : a ∈ (as.dropWhile p).head?) : p a = false := by
  have hnot := List.head?_dropWhile_not p as
  rw [Option.mem_def.mp h] at hnot
  exact hnot

theorem head?_dropWhile (h : ∀ a, p a = false → q a = true) (as : List α) : (as.dropWhile p).head?.all q = true :=
  (Option.all_eq_true _ _).mpr fun a ha => h a (dropWhile_stops ha)

theorem eq_nil_of_dropWhile {core : List α} (hfront : ∀ a ∈ front, p a = false) (hback : ∀ a ∈ back, p a = false)
    (h : (front ++ core ++ back).dropWhile p = core.dropWhile p) : front = [] ∧ back = [] := by
  have hlength := congrArg List.length h
  have hshort := (List.dropWhile_sublist p (l := core)).length_le
  cases front with
  | cons a front =>
      rw [List.cons_append, List.cons_append,
        List.dropWhile_cons_of_neg (by simp [hfront a List.mem_cons_self])] at hlength
      simp only [List.length_cons, List.length_append] at hlength
      omega
  | nil =>
      have hstop : back.dropWhile p = back := by
        cases back with
        | nil => rfl
        | cons a back => exact List.dropWhile_cons_of_neg (by simp [hback a List.mem_cons_self])
      rw [List.nil_append, List.dropWhile_append, hstop] at h
      refine ⟨rfl, ?_⟩
      split at h
      · rename_i hempty
        rw [h]
        simpa using hempty
      · exact List.append_right_eq_self.mp h

/-! ## First elements -/

theorem head?_append_all (hfront : front.head?.all p = true) (hback : back.head?.all p = true) :
    (front ++ back).head?.all p = true := by
  cases front with
  | nil => exact hback
  | cons => exact hfront

theorem not_any_of_all {o : Option α} (h : o.all (fun a => !p a) = true) : o.any p = false := by
  cases o with
  | none => rfl
  | some a => simpa using h

theorem suffix_of_notMem (h : a :: as <:+ front ++ back) (ha : a ∉ front) : a :: as <:+ back := by
  induction front with
  | nil => exact h
  | cons b front ih =>
      rcases List.suffix_cons_iff.mp h with heq | h
      · exact absurd (List.cons.inj heq).1 fun hb => ha (hb ▸ List.mem_cons_self)
      · exact ih h fun hmem => ha (List.mem_cons_of_mem _ hmem)

theorem insertIdx_length_add (front back : List α) (n : Nat) (a : α) :
    (front ++ back).insertIdx (front.length + n) a = front ++ back.insertIdx n a := by
  induction front with
  | nil => simp
  | cons b front ih =>
      rw [List.length_cons, Nat.add_right_comm, List.cons_append, List.insertIdx_succ_cons, ih, List.cons_append]

/-! ## No duplicates -/

theorem nodup_append_of_forall {P : α → Prop} (hfront : front.Nodup) (hback : back.Nodup) (hP : ∀ a ∈ front, P a)
    (hQ : ∀ a ∈ back, ¬ P a) : (front ++ back).Nodup := by
  refine List.nodup_append.mpr ⟨hfront, hback, ?_⟩
  rintro a ha _ ha' rfl
  exact hQ a ha' (hP a ha)

theorem nodup_eraseDups [BEq α] [LawfulBEq α] (as : List α) : as.eraseDups.Nodup := by
  match as with
  | [] => exact List.nodup_nil
  | a :: as =>
      have : (as.filter fun b => !b == a).length < as.length + 1 :=
        Nat.lt_add_one_of_le (List.length_filter_le _ as)
      rw [List.eraseDups_cons, List.nodup_cons]
      exact ⟨by simp, nodup_eraseDups _⟩
termination_by as.length

end

/-! ## Finding and choosing -/

section

variable {α β : Type} {f g : α → Option β} {xs : List α}

theorem findSome?_eq_bind (f : α → Option β) (xs : List α) :
    xs.findSome? f = (xs.find? fun x => (f x).isSome).bind f := by
  induction xs with
  | nil => rfl
  | cons x xs ih => cases hf : f x <;> simp [hf, ih]

theorem findSome?_reverse_of_last {i : Nat} {x : α} {y : β} (hx : xs[i]? = some x) (hy : f x = some y)
    (hlast : ∀ j x', i < j → xs[j]? = some x' → f x' = none) : xs.reverse.findSome? f = some y := by
  induction xs generalizing i with
  | nil => simp at hx
  | cons x₀ xs ih =>
      rw [List.reverse_cons, List.findSome?_append, List.findSome?_singleton]
      cases i with
      | zero =>
          cases hx
          have hnone : xs.reverse.findSome? f = none := by
            rw [List.findSome?_eq_none_iff]
            intro x' hx'
            obtain ⟨j, hj⟩ := List.mem_iff_getElem?.mp (List.mem_reverse.mp hx')
            exact hlast (j + 1) x' (Nat.succ_pos j) hj
          rw [hnone, hy]
          rfl
      | succ i =>
          rw [ih hx fun j x' hj => hlast (j + 1) x' (Nat.succ_lt_succ hj)]
          rfl

/-- Taking less of the elements than another way does is leaving out those from what the other way has taken. -/
theorem filterMap_eq_zip_filter {p : α → Bool} {q : α → Prop} [DecidablePred q] (hp : ∀ x, p x = (f x).isSome)
    (hg : ∀ x, g x = if q x then none else f x) (xs : List α) :
    xs.filterMap g = (((xs.filter p).zip (xs.filterMap f)).filter fun e => ¬ q e.1).map (·.2) := by
  induction xs with
  | nil => rfl
  | cons x xs ih =>
      cases hf : f x with
      | none => simpa [hp, hg, hf] using ih
      | some y => by_cases hq : q x <;> simpa [hp, hg, hf, hq] using ih

theorem forall₂_filterMap {p : α → Bool} (h : ∀ x ∈ xs, p x = (f x).isSome) :
    List.Forall₂ (fun x y => f x = some y) (xs.filter p) (xs.filterMap f) := by
  induction xs with
  | nil => exact .nil
  | cons x xs ih =>
      obtain ⟨hx, hxs⟩ := List.forall_mem_cons.mp h
      cases hf : f x with
      | none => simpa [hx, hf] using ih hxs
      | some y => simpa [hx, hf] using ih hxs

theorem forall₂_and_right {R : α → β → Prop} {P : β → Prop} {ys : List β} (h : List.Forall₂ R xs ys)
    (hp : ∀ y ∈ ys, P y) : List.Forall₂ (fun x y => R x y ∧ P y) xs ys := by
  induction h with
  | nil => exact .nil
  | cons hr _ ih =>
      obtain ⟨hy, hys⟩ := List.forall_mem_cons.mp hp
      exact .cons ⟨hr, hy⟩ (ih hys)

end

end ApiManifest
