import ApiManifest.Proofs.Files.Overlay
import ApiManifest.Proofs.Text.Identifier

/-!
# Files in a directory

A directory in which there are files only holds each file that is written under a name that leads down from it. Where a
name has more than one part, the first one would have to lead to a directory: nothing is written there.
-/

namespace ApiManifest

namespace Path

variable {p : Path}

/-- The first name of the path leads one step down. -/
def StartsDown (p : Path) : Prop :=
  ∀ name ∈ p.names.head?, LeadsDown name

theorem names_cases (p : Path) : p.names = [p] ∨
    ∃ front back, p = front ++ "/" ++ back ∧ '/' ∉ front.toList ∧ p.names = front :: back.names := by
  cases hsplit : Text.splitOnce '/' p.toList with
  | none => exact .inl (names_of_notMem (Text.splitOnce_eq_none.mp hsplit))
  | some parts =>
      obtain ⟨hfront, hp⟩ := Text.splitOnce_eq_some hsplit
      have hp : p = String.ofList parts.1 ++ "/" ++ String.ofList parts.2 := by
        rw [← String.toList_inj, ← hp]
        simp
      have hmem : '/' ∉ (String.ofList parts.1).toList := by simpa using hfront
      refine .inr ⟨_, _, hp, hmem, ?_⟩
      rw [hp, names_around, names_of_notMem hmem]
      rfl

theorem startsDown_of_head? {c : Char} (h : p.toList.head? = some c) (hslash : c ≠ '/') (hpoint : c ≠ '.') :
    p.StartsDown := by
  have hname : ∀ name : String, name.toList.head? = some c → LeadsDown name := by
    intro name hname
    refine ⟨?_, ?_, ?_⟩ <;> rintro rfl <;> simp at hname <;> exact hpoint hname.symm
  obtain hnames | ⟨front, back, rfl, _, hnames⟩ := p.names_cases
  · simpa [StartsDown, hnames] using hname p h
  · have hfront : front.toList.head? = some c := by
      cases hf : front.toList with
      | nil =>
          simp [hf] at h
          exact absurd h.symm hslash
      | cons d ds => simpa [hf] using h
    simpa [StartsDown, hnames] using hname front hfront

theorem StartsDown.isAbsolute (h : p.StartsDown) : p.isAbsolute = false := by
  cases hp : p.toList with
  | nil => simp [Path.isAbsolute, hp]
  | cons c cs =>
      have hc : c ≠ '/' := by
        rintro rfl
        have hempty : p.names.head? = some "" := by
          rw [names, hp, Text.splitOn, if_pos (beq_self_eq_true '/')]
          rfl
        exact (h "" hempty).1 rfl
      simp [Path.isAbsolute, hp, hc]

/-- The path itself, or the one to where it starts. -/
def orHere (p : Path) : Path :=
  if p = "" then "." else p

theorem join_eq_append (root : Path) {name : Path} (hname : name.isAbsolute = false) :
    ∃ rest, root.join name = root ++ rest := by
  rw [join, hname, if_neg (by decide)]
  split
  · exact ⟨name, rfl⟩
  · exact ⟨"/" ++ name, String.append_assoc ..⟩

end Path

namespace FileTree

variable {t t' t'' : FileTree} {place place' : Place} {root name : Path} {names : List String}

theorem entry?_set (t : FileTree) (h : place ≠ []) (entry : Entry) (place' : Place) :
    entry? (t.set place entry) place' = if place = place' then some entry else t.entry? place' := by
  cases place' with
  | nil => simp [ entry?, h]
  | cons n ns =>
      by_cases heq : place = n :: ns
      · simp [ entry?, set, heq]
      · have hfilter : (t.entries.filter fun e => e.1 != place).find? (fun e => e.1 == n :: ns) =
            t.entries.find? fun e => e.1 == n :: ns := by
          rw [List.find?_filter]
          congr 1
          funext e
          by_cases he : e.1 = n :: ns <;> simp [he, Ne.symm heq]
        simp [ entry?, set, heq, hfilter]

/-! ## Directories that stay -/

structure DirectoriesStay (t t' : FileTree) : Prop where
  working : t'.working = t.working
  directory : ∀ place, t.entry? place = some .directory → t'.entry? place = some .directory

namespace DirectoriesStay

theorem refl (t : FileTree) : t.DirectoriesStay t :=
  ⟨rfl, fun _ h => h⟩

theorem trans (h : t.DirectoriesStay t') (h' : t'.DirectoriesStay t'') : t.DirectoriesStay t'' :=
  ⟨h'.working.trans h.working, fun place hplace => h'.directory place (h.directory place hplace)⟩

theorem set (h : t.entry? place ≠ some .directory) (entry : Entry) : t.DirectoriesStay (t.set place entry) := by
  have hplace : place ≠ [] := by
    rintro rfl
    exact h rfl
  refine ⟨rfl, fun place' hplace' => ?_⟩
  rw [entry?_set t hplace, if_neg]
  · exact hplace'
  · rintro rfl
    exact h hplace'

end DirectoriesStay

theorem directory_of_advance {n : String} (h : t.advance place n = .ok place') : t.entry? place = some .directory := by
  unfold advance at h
  split at h
  · cases h
  · cases h
  · assumption

namespace DirectoriesStay

variable (hstay : t.DirectoriesStay t')
include hstay

theorem advance {n : String} (h : t.advance place n = .ok place') : t'.advance place n = .ok place' := by
  have hdirectory := directory_of_advance h
  rwa [FileTree.advance, hstay.directory place hdirectory, ← hdirectory, ← FileTree.advance]

theorem walk (h : names.foldlM t.advance place = .ok place') : names.foldlM t'.advance place = .ok place' := by
  induction names generalizing place with
  | nil => exact h
  | cons n names ih =>
      rw [List.foldlM_cons, bind_eq_ok] at h ⊢
      obtain ⟨next, hnext, h⟩ := h
      exact ⟨next, hstay.advance hnext, ih h⟩

theorem find {p : Path} (h : t.find p = .ok place) : t'.find p = .ok place := by
  unfold FileTree.find at h ⊢
  split at h
  · cases h
  split at h
  · cases h
  · rename_i hne husable
    rw [if_neg hne, if_neg husable]
    rw [start] at h
    rw [start, hstay.working]
    exact hstay.walk h

theorem isDirectory {p : Path} (h : t.isDirectory p = true) : t'.isDirectory p = true := by
  unfold FileTree.isDirectory at h ⊢
  cases hfind : t.find p with
  | error e => simp [hfind] at h
  | ok place =>
      rw [hstay.find hfind]
      simp only [hfind, beq_iff_eq] at h
      simpa using hstay.directory place h

end DirectoriesStay

/-! ## Making directories -/

theorem advanceMaking_cases {n : String} (h : t.advanceMaking place n = .ok (t', place')) :
    t.advance place n = .ok place' ∧
      (t.entry? place' = some .directory ∧ t' = t ∨ t.entry? place' = none ∧ t' = t.set place' .directory) := by
  obtain ⟨next, hnext, h⟩ := bind_eq_ok.mp h
  cases hentry : t.entry? next with
  | none =>
      rw [hentry] at h
      cases h
      exact ⟨hnext, .inr ⟨hentry, rfl⟩⟩
  | some entry =>
      rw [hentry] at h
      cases entry with
      | file bytes => cases h
      | directory =>
          cases h
          exact ⟨hnext, .inl ⟨hentry, rfl⟩⟩

theorem advanceMaking_directory {n : String} (h : t.advance place n = .ok place')
    (hdirectory : t.entry? place' = some .directory) : t.advanceMaking place n = .ok (t, place') := by
  rw [advanceMaking, h, ok_bind, hdirectory]
  rfl

theorem advanceMaking_stay {n : String} (h : t.advanceMaking place n = .ok (t', place')) :
    t.DirectoriesStay t' ∧ t'.entry? place' = some .directory := by
  obtain ⟨-, ⟨hdirectory, rfl⟩ | ⟨hnone, rfl⟩⟩ := advanceMaking_cases h
  · exact ⟨.refl _, hdirectory⟩
  · refine ⟨.set (by simp [hnone]) _, ?_⟩
    rw [entry?_set, if_pos rfl]
    rintro rfl
    cases hnone

/-- Directories that have been made are there from then on: making them again changes nothing. -/
theorem makeAlong_stay (h : t.makeAlong place names = (true, t')) :
    t.DirectoriesStay t' ∧ ∀ t'', t'.DirectoriesStay t'' → t''.makeAlong place names = (true, t'') := by
  induction names generalizing t place with
  | nil =>
      cases h
      exact ⟨.refl _, fun _ _ => rfl⟩
  | cons n names ih =>
      rw [makeAlong] at h
      cases hmade : t.advanceMaking place n with
      | error e =>
          rw [hmade] at h
          cases h
      | ok made =>
          rw [hmade] at h
          obtain ⟨hstay, hdirectory⟩ := advanceMaking_stay hmade
          obtain ⟨hrest, hagain⟩ := ih h
          refine ⟨hstay.trans hrest, fun t'' ht'' => ?_⟩
          have hnext := (hstay.trans (hrest.trans ht'')).advance (advanceMaking_cases hmade).1
          rw [makeAlong, advanceMaking_directory hnext ((hrest.trans ht'').directory _ hdirectory)]
          exact hagain t'' ht''

theorem makeDirectories_stay (h : t.makeDirectories root = (true, t')) :
    t.DirectoriesStay t' ∧ ∀ t'', t'.DirectoriesStay t'' → t''.makeDirectories root = (true, t'') := by
  unfold makeDirectories at h ⊢
  split at h
  · rename_i hempty
    cases h
    exact ⟨.refl _, fun _ _ => if_pos hempty⟩
  · rename_i hempty
    split at h
    · cases h
    · rename_i husable
      simp only [if_neg hempty, if_neg husable]
      dsimp only at h
      split at h
      · rename_i hlast
        obtain ⟨hroot, rfl⟩ := Prod.mk.inj h
        exact ⟨.refl _, fun t'' ht'' => by rw [if_pos hlast, ht''.isDirectory hroot]⟩
      · rename_i hlast
        obtain ⟨hstay, hagain⟩ := makeAlong_stay h
        refine ⟨hstay, fun t'' ht'' => ?_⟩
        rw [if_neg hlast, start, (hstay.trans ht'').working]
        exact hagain t'' ht''

/-! ## Ways into a directory -/

theorem advance_cases {n : String} (h : t.advance place n = .ok place') (hup : n ≠ "..") :
    Path.LeadsDown n ∧ place' = place ++ [n] ∨ ¬ Path.LeadsDown n ∧ place' = place := by
  rw [advance, directory_of_advance h] at h
  by_cases hstay : n = "" ∨ n = "."
  · simp only [Bool.or_eq_true, decide_eq_true_eq, hstay, if_true, Except.ok.injEq] at h
    exact .inr ⟨by rcases hstay with rfl | rfl <;> decide, h.symm⟩
  · have hdown := not_or.mp hstay
    simp only [Bool.or_eq_true, decide_eq_true_eq, hstay, hup, if_false] at h
    split at h
    · cases h
    · exact .inl ⟨⟨hdown.1, hdown.2, hup⟩, (Except.ok.inj h).symm⟩

theorem find_join (hname : name.isAbsolute = false) (h : t.find (root.join name) = .ok place') :
    ∃ place, t.find root.orHere = .ok place ∧ name.names.foldlM t.advance place = .ok place' := by
  obtain ⟨-, hlength, hnul, hwalk⟩ := find_eq_ok.mp h
  by_cases hroot : root = ""
  · subst hroot
    rw [Path.join, hname, if_neg (by decide), if_pos (by decide), String.empty_append, start, hname] at hwalk
    obtain ⟨n, rest, hnames⟩ := List.exists_cons_of_ne_nil name.names_ne_nil
    have hhere : t.entry? t.working = some .directory := by
      rw [hnames, List.foldlM_cons] at hwalk
      obtain ⟨next, hnext, -⟩ := bind_eq_ok.mp hwalk
      exact directory_of_advance hnext
    refine ⟨t.working, find_eq_ok.mpr ⟨by decide, by decide, by decide, ?_⟩, hwalk⟩
    have hpoint : Path.names "." = ["."] := by decide
    simp [hpoint, start, Path.orHere, Path.isAbsolute, advance, hhere]
  · obtain ⟨rest, hrest⟩ := Path.join_eq_append root hname
    rw [walk_names_join t _ hroot hname, start_join hroot hname, bind_eq_ok] at hwalk
    obtain ⟨place, hplace, hwalk⟩ := hwalk
    rw [hrest, String.utf8ByteSize_append] at hlength
    rw [hrest, String.toList_append, List.mem_append, not_or] at hnul
    rw [Path.orHere, if_neg hroot]
    exact ⟨place, find_eq_ok.mpr ⟨hroot, by omega, hnul.1, hplace⟩, hwalk⟩

theorem walk_of_flat (hname : name.StartsDown) (hflat : ∀ n, t.entry? (place ++ [n]) ≠ some .directory)
    (h : name.names.foldlM t.advance place = .ok place') : place' = place ++ [name] := by
  obtain hnames | ⟨front, back, -, -, hnames⟩ := name.names_cases
  all_goals
    rw [hnames, List.foldlM_cons] at h
    obtain ⟨next, hnext, h⟩ := bind_eq_ok.mp h
    have hdown := hname _ (by rw [hnames, List.head?_cons]; rfl)
    obtain ⟨-, rfl⟩ := (advance_cases hnext hdown.2.2).resolve_right (fun hstay => hstay.1 hdown)
  · exact (Except.ok.inj h).symm
  · obtain ⟨n, rest, hback⟩ := List.exists_cons_of_ne_nil back.names_ne_nil
    rw [hback, List.foldlM_cons] at h
    obtain ⟨_, hbelow, -⟩ := bind_eq_ok.mp h
    exact absurd (directory_of_advance hbelow) (hflat front)

/-! ## What a directory holds -/

/-- What a directory holds under a name, once it has been made. -/
def under (root : Path) (t : FileTree) (name : String) : Option Entry :=
  let made := (t.makeDirectories root).2
  match made.find root.orHere with
  | .ok place => made.entry? (place ++ [name])
  | .error _ => none

theorem under_eq (hmade : (t.makeDirectories root).2 = t') (hfind : t'.find root.orHere = .ok place) (n : String) :
    t.under root n = t'.entry? (place ++ [n]) := by
  subst hmade
  simp only [under, hfind]

/-- A file that is written into a directory of files is held under its name, and the others stay as they are. -/
theorem under_write {bytes : List UInt8} (hname : name.StartsDown) (hflat : ∀ n, t.under root n ≠ some .directory)
    (hmade : t.makeDirectories root = (true, t')) (hwrite : t'.write (root.join name) bytes = (true, t''))
    (n : String) : t''.under root n = if name = n then some (.file bytes) else t.under root n := by
  rw [write] at hwrite
  cases hfind : t'.find (root.join name) with
  | error e => simp [hfind] at hwrite
  | ok at' =>
      simp only [hfind] at hwrite
      split at hwrite
      · cases hwrite
      · rename_i hentry
        obtain ⟨-, rfl⟩ := Prod.mk.inj hwrite
        obtain ⟨place, hplace, hwalk⟩ := find_join hname.isAbsolute hfind
        have hbefore := under_eq (congrArg Prod.snd hmade) hplace
        have hat : at' = place ++ [name] := walk_of_flat hname (fun n => hbefore n ▸ hflat n) hwalk
        have hstay : t'.DirectoriesStay (t'.set at' (.file bytes)) := .set hentry _
        have hagain := (makeDirectories_stay hmade).2 _ hstay
        rw [under_eq (congrArg Prod.snd hagain) (hstay.find hplace), hbefore, hat, entry?_set _ (by simp)]
        simp

/-! ## Directories that hold nothing -/

end FileTree

end ApiManifest
