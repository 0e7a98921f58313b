import ApiManifest.Files.Tree
import ApiManifest.Proofs.Except
import ApiManifest.Proofs.Files.Join
import ApiManifest.Proofs.Text.Lines

/-!
# Overlays

A tree may lie over another one: what the upper one has at a place counts there. If no place is a file in one of them
and a directory in the other, then a file is found in the overlay as it is found in the upper tree, or else as in the
lower one.
-/

namespace ApiManifest

/-! ## Plain paths -/

namespace Path

def LeadsDown (name : String) : Prop :=
  name ≠ "" ∧ name ≠ "." ∧ name ≠ ".."
  deriving Decidable

def IsPlain (p : Path) : Prop :=
  ∀ name ∈ p.names, LeadsDown name
  deriving Decidable

variable {p q root : Path}

theorem names_around (p q : Path) : names (p ++ "/" ++ q) = p.names ++ q.names := by
  have hsplit := Text.splitOn_around '/' p.toList q.toList
  simp only [names, String.toList_append, ← List.map_append, ← hsplit]
  rw [List.append_assoc]
  rfl

theorem names_append_slash (p : Path) : names (p ++ "/") = p.names ++ [""] := by
  have hnames := names_around p ""
  rwa [String.append_empty] at hnames

theorem names_of_notMem (h : '/' ∉ p.toList) : p.names = [p] := by
  rw [names, Text.splitOn_of_notMem h, List.map_singleton, String.ofList_toList]

theorem names_ne_nil (p : Path) : p.names ≠ [] :=
  mt List.map_eq_nil_iff.mp (Text.splitOn_ne_nil '/' p.toList)

theorem exists_of_getLast? (h : p.toList.getLast? = some '/') : ∃ q, p = q ++ "/" := by
  obtain ⟨front, hfront⟩ := List.getLast?_eq_some_iff.mp h
  refine ⟨String.ofList front, String.toList_inj.mp ?_⟩
  rw [hfront, String.toList_append, String.toList_ofList]
  rfl

theorem IsPlain.isAbsolute (h : p.IsPlain) : p.isAbsolute = false := by
  cases hp : p.toList with
  | nil => simp [Path.isAbsolute, hp]
  | cons c cs =>
      have hc : c ≠ '/' := by
        rintro rfl
        have hempty : "" ∈ p.names := by
          rw [names, hp, Text.splitOn, if_pos (beq_self_eq_true '/')]
          exact List.mem_cons_self
        exact (h _ hempty).1 rfl
      rw [← String.ofList_toList (s := p), hp]
      exact isAbsolute_ofList_cons hc

theorem IsPlain.names_join (hp : p.IsPlain) (hq : q.IsPlain) : (p.join q).names = p.names ++ q.names := by
  have hne : p ≠ "" := by
    rintro rfl
    exact (hp "" (by decide)).1 rfl
  have hlast : p.toList.getLast? ≠ some '/' := by
    intro hlast
    obtain ⟨r, rfl⟩ := exists_of_getLast? hlast
    have hempty : "" ∈ names (r ++ "/") := by
      rw [names_append_slash]
      exact List.mem_append_right _ List.mem_cons_self
    exact (hp _ hempty).1 rfl
  rw [join, hq.isAbsolute, if_neg (by decide), if_neg (by simp [hne, hlast]), names_around]

theorem IsPlain.join (hp : p.IsPlain) (hq : q.IsPlain) : (p.join q).IsPlain := by
  rw [IsPlain, hp.names_join hq]
  exact fun name hname => (List.mem_append.mp hname).elim (hp name) (hq name)

end Path

def Entry.isFile : Entry → Bool
  | file _ => true
  | directory => false

namespace FileTree

variable {t t' c s : FileTree} {place place' : Place} {names : List String} {root name : Path}

/-! ## Reading along a way -/

def content (t : FileTree) (place : Place) : Except FileFault (List UInt8) :=
  match t.entry? place with
  | some (.file bytes) => .ok bytes
  | some .directory => .error .unusable
  | none => .error .missing

def readAlong (t : FileTree) (place : Place) (names : List String) : Except FileFault (List UInt8) :=
  names.foldlM t.advance place >>= t.content

theorem read_eq (t : FileTree) (p : Path) : t.read p = t.find p >>= t.content := by
  rw [read]
  cases t.find p with
  | error e => rfl
  | ok place =>
      simp only [ok_bind, content]
      cases t.entry? place with
      | none => rfl
      | some entry => cases entry <;> rfl

theorem readAlong_nil (t : FileTree) (place : Place) : t.readAlong place [] = t.content place :=
  rfl

theorem advance_of_leadsDown {name : String} (h : Path.LeadsDown name) :
    t.advance place name =
      match t.entry? place with
      | none => .error .missing
      | some (.file _) => .error .unusable
      | some .directory => if maxName < name.utf8ByteSize then .error .unusable else .ok (place ++ [name]) := by
  obtain ⟨hempty, hpoint, hpoints⟩ := h
  rw [advance]
  cases t.entry? place with
  | none => rfl
  | some entry =>
      cases entry with
      | file bytes => rfl
      | directory => simp only [hempty, hpoint, hpoints, if_false, decide_false, Bool.or_self, Bool.false_eq_true]

theorem readAlong_cons {name : String} (h : Path.LeadsDown name) (names : List String) :
    t.readAlong place (name :: names) =
      match t.entry? place with
      | none => .error .missing
      | some (.file _) => .error .unusable
      | some .directory =>
        if maxName < name.utf8ByteSize then .error .unusable else t.readAlong (place ++ [name]) names := by
  rw [readAlong, List.foldlM_cons, advance_of_leadsDown h, bind_assoc]
  cases t.entry? place with
  | none => rfl
  | some entry =>
      cases entry with
      | file bytes => rfl
      | directory =>
          dsimp only
          split <;> rfl

theorem readAlong_of_none (h : t.entry? place = none) (hplain : ∀ name ∈ names, Path.LeadsDown name) :
    t.readAlong place names = .error .missing := by
  cases names with
  | nil => rw [readAlong_nil, content, h]
  | cons name names => rw [readAlong_cons (hplain name List.mem_cons_self), h]

/-- Trees that have the same at a place and below it read the same along plain names. -/
theorem readAlong_congr (h : ∀ below, t.entry? (place ++ below) = t'.entry? (place' ++ below))
    (hplain : ∀ name ∈ names, Path.LeadsDown name) :
    t.readAlong place names = t'.readAlong place' names := by
  have hhere : t.entry? place = t'.entry? place' := by simpa using h []
  induction names generalizing place place' with
  | nil => rw [readAlong_nil, readAlong_nil, content, content, hhere]
  | cons name names ih =>
      rw [List.forall_mem_cons] at hplain
      have hbelow : ∀ below, t.entry? (place ++ [name] ++ below) = t'.entry? (place' ++ [name] ++ below) := by
        simpa using fun below => h (name :: below)
      rw [readAlong_cons hplain.1, readAlong_cons hplain.1, hhere, ih hbelow hplain.2 (by simpa using h [name])]

/-! ## Trees within a tree -/

/-- At the place to which the path leads, and below it, the tree has what the other one has. -/
def Holds (t : FileTree) (root : Path) (tree : FileTree) : Prop :=
  ∃ place, t.find root = .ok place ∧ ∀ below, t.entry? (place ++ below) = tree.entry? below

theorem advance_empty_bind {β : Type} (t : FileTree) (place : Place) (name : String) (f : Place → Except FileFault β) :
    (t.advance place "" >>= fun at' => t.advance at' name >>= f) = t.advance place name >>= f := by
  cases h : t.entry? place with
  | none => simp [advance, h, error_bind]
  | some entry =>
      cases entry with
      | file bytes => simp [advance, h, error_bind]
      | directory => simp [advance, h, ok_bind]

theorem walk_names_join (t : FileTree) (place : Place) (hroot : root ≠ "") (hname : name.isAbsolute = false) :
    (root.join name).names.foldlM t.advance place =
      root.names.foldlM t.advance place >>= fun at' => name.names.foldlM t.advance at' := by
  rw [Path.join, hname, if_neg (by decide)]
  split
  · rename_i h
    have hlast : root.toList.getLast? = some '/' := by simpa [hroot] using h
    obtain ⟨front, rfl⟩ := Path.exists_of_getLast? hlast
    rw [Path.names_around, Path.names_append_slash, List.foldlM_append, List.foldlM_append, bind_assoc]
    congr 1
    funext at'
    -- the slash at the end of the root leaves an empty name
    obtain ⟨next, rest, hrest⟩ := List.exists_cons_of_ne_nil (Path.names_ne_nil name)
    simp only [hrest, List.foldlM_cons, List.foldlM_nil, bind_assoc, pure_bind, advance_empty_bind]
  · rw [Path.names_around, List.foldlM_append]

theorem readAlong_names_join (t : FileTree) (place : Place) (hroot : root ≠ "") (hname : name.isAbsolute = false) :
    t.readAlong place (root.join name).names =
      root.names.foldlM t.advance place >>= fun at' => t.readAlong at' name.names := by
  simp only [readAlong, walk_names_join t place hroot hname, bind_assoc]

theorem find_eq_ok {p : Path} :
    t.find p = .ok place ↔
      p ≠ "" ∧ p.utf8ByteSize ≤ maxPath ∧ '\x00' ∉ p.toList ∧ p.names.foldlM t.advance (t.start p) = .ok place := by
  by_cases hempty : p = ""
  · simp [find, hempty]
  by_cases hlength : maxPath < p.utf8ByteSize
  · simp [find, hempty, hlength, Nat.not_le.mpr hlength]
  by_cases hnul : '\x00' ∈ p.toList <;> simp [find, hempty, hlength, hnul, Nat.not_lt.mp hlength]

theorem start_join (hroot : root ≠ "") (hname : name.isAbsolute = false) : t.start (root.join name) = t.start root := by
  have habsolute : (root.join name).isAbsolute = root.isAbsolute := by
    simp only [Path.join, hname, Bool.false_eq_true, if_false]
    split <;> simp [Path.isAbsolute_append, hroot]
  rw [start, start, habsolute]

theorem mem_join_iff (hname : name.isAbsolute = false) (hroot : '\x00' ∉ root.toList) :
    '\x00' ∈ (root.join name).toList ↔ '\x00' ∈ name.toList := by
  simp only [Path.join, hname, Bool.false_eq_true, if_false]
  split <;> simp [hroot]

/-- Below a path where a tree is held, files read as they do in that tree. No path may have a NUL in it. -/
theorem Holds.read_join {tree : FileTree} (h : t.Holds root tree) (hname : name.IsPlain)
    (hlength : (root.join name).utf8ByteSize ≤ maxPath) :
    t.read (root.join name) =
      if '\x00' ∈ name.toList then .error .unusable else tree.readAlong [] name.names := by
  obtain ⟨place, hfind, hbelow⟩ := h
  obtain ⟨hroot, -, hnul, hwalk⟩ := find_eq_ok.mp hfind
  have hjoin : root.join name ≠ "" := by
    simp only [Path.join, hname.isAbsolute, Bool.false_eq_true, if_false]
    split <;> simp [hroot]
  have hmem := mem_join_iff hname.isAbsolute hnul
  rw [read_eq, find, if_neg hjoin]
  by_cases h : '\x00' ∈ name.toList
  · rw [if_pos h, if_pos (by simp [hmem, h])]
    rfl
  · rw [if_neg h, if_neg (by simp [hmem, h, hlength]), start_join hroot hname.isAbsolute]
    change t.readAlong _ _ = _
    rw [readAlong_names_join t _ hroot hname.isAbsolute, hwalk, ok_bind]
    exact readAlong_congr (by simpa using hbelow) hname

def mount (t : FileTree) (place : Place) (tree : FileTree) : FileTree :=
  { t with entries := (place, .directory) :: tree.entries.map (fun e => (place ++ e.1, e.2)) ++ t.entries }

theorem entry?_mount_of_not_prefix (tree : FileTree) (h : ¬ place <+: place') :
    entry? (t.mount place tree) place' = t.entry? place' := by
  have hne : (place == place') = false := by
    rw [beq_eq_false_iff_ne]
    exact fun he => h (he ▸ List.prefix_rfl)
  have hnone : (tree.entries.map fun e => (place ++ e.1, e.2)).find? (fun e => e.1 == place') = none := by
    rw [List.find?_eq_none]
    intro e he
    obtain ⟨e', -, rfl⟩ := List.mem_map.mp he
    simpa using fun heq => h ⟨e'.1, heq⟩
  simp only [ entry?, mount, List.cons_append, List.find?_cons, List.find?_append, hne, hnone, Option.none_or]

theorem entry?_mount (tree : FileTree) (hplace : place ≠ []) (h : ∀ e ∈ t.entries, ¬ place <+: e.1) (below : Place) :
    entry? (t.mount place tree) (place ++ below) = tree.entry? below := by
  have hbelow : (tree.entries.map fun e => (place ++ e.1, e.2)).find? (fun e => e.1 == place ++ below) =
      (tree.entries.find? fun e => e.1 == below).map fun e => (place ++ e.1, e.2) := by
    rw [List.find?_map]
    congr 2
    funext e
    simp only [Function.comp_apply, Bool.beq_eq_decide_eq, List.append_cancel_left_eq]
  have hrest : t.entries.find? (fun e => e.1 == place ++ below) = none := by
    rw [List.find?_eq_none]
    intro e he
    simpa using fun heq => h e he ⟨below, heq.symm⟩
  cases below with
  | nil => simp [ entry?, mount, hplace]
  | cons name names =>
      have hne : (place == place ++ name :: names) = false := by simp
      simp only [ entry?, mount, List.cons_append, List.find?_cons, List.find?_append, hne, hbelow, hrest,
        Option.or_none, Option.map_map]
      simp [Function.comp_def]

/-! ## One tree over another -/

/-- In a tree, what has something below it is a directory. -/
def Closed (t : FileTree) : Prop :=
  ∀ place name, t.entry? (place ++ [name]) ≠ none → t.entry? place = some .directory

theorem exists_of_entry? (h : t.entry? place ≠ none) : place = [] ∨ ∃ e ∈ t.entries, e.1 = place := by
  cases place with
  | nil => exact .inl rfl
  | cons name names =>
      obtain ⟨e, he⟩ := Option.ne_none_iff_exists'.mp h
      obtain ⟨found, hfound, -⟩ := Option.map_eq_some_iff.mp he
      exact .inr ⟨found, List.mem_of_find?_eq_some hfound, by simpa using List.find?_some hfound⟩

theorem entry?_of_mem {e : Place × Entry} (h : e ∈ t.entries) : t.entry? e.1 ≠ none := by
  intro hnone
  rw [ entry?] at hnone
  split at hnone
  · cases hnone
  · simp only [Option.map_eq_none_iff, List.find?_eq_none, beq_iff_eq] at hnone
    exact hnone e h rfl

theorem closed_iff : t.Closed ↔ ∀ e ∈ t.entries, t.entry? e.1.dropLast = some .directory := by
  constructor
  · intro h e he
    obtain hnil | ⟨front, last, hplace⟩ := List.eq_nil_or_concat e.1
    · rw [hnil]
      rfl
    · rw [List.concat_eq_append] at hplace
      rw [hplace, List.dropLast_concat]
      exact h front last (hplace ▸ entry?_of_mem he)
  · intro h place name hsome
    obtain hnil | ⟨e, he, heq⟩ := exists_of_entry? hsome
    · simp at hnil
    · simpa [heq] using h e he

instance : Decidable t.Closed :=
  decidable_of_iff _ closed_iff.symm

/-- No place is a file in one of the trees and a directory in the other one. -/
def Compatible (c s : FileTree) : Prop :=
  ∀ place, ∀ a ∈ c.entry? place, ∀ b ∈ s.entry? place, a.isFile = b.isFile

theorem compatible_iff :
    Compatible c s ↔ ∀ e ∈ c.entries, ∀ a ∈ c.entry? e.1, ∀ b ∈ s.entry? e.1, a.isFile = b.isFile := by
  constructor
  · exact fun h e _ => h e.1
  · intro h place a ha b hb
    obtain rfl | ⟨e, he, rfl⟩ := exists_of_entry? (Option.ne_none_iff_exists'.mpr ⟨a, ha⟩)
    · cases ha
      cases hb
      rfl
    · exact h e he a ha b hb

instance : Decidable (Compatible c s) :=
  decidable_of_iff _ compatible_iff.symm

def overlay (c s : FileTree) : FileTree :=
  { entries := c.entries ++ s.entries }

theorem entry?_overlay (c s : FileTree) (place : Place) :
    entry? (c.overlay s) place = Option.or ( c.entry? place) ( s.entry? place) := by
  cases place with
  | nil => rfl
  | cons name names => simp [ entry?, overlay, List.find?_append, Option.map_or]

theorem Closed.below_none (h : t.Closed) {place : Place} (hnone : t.entry? place = none) (below : Place) :
    t.entry? (place ++ below) = none := by
  induction below generalizing place with
  | nil => simpa using hnone
  | cons name below ih =>
      have hnext : t.entry? (place ++ [name]) = none := by
        cases hnext : t.entry? (place ++ [name]) with
        | none => rfl
        | some entry => simp [h place name (by simp [hnext])] at hnone
      simpa using ih hnext

theorem Closed.overlay (hc : c.Closed) (hs : s.Closed) (h : Compatible c s) : (c.overlay s).Closed := by
  intro place name hsome
  rw [ entry?_overlay] at hsome ⊢
  by_cases hbelow : c.entry? (place ++ [name]) = none
  · have hdirectory := hs place name (by simpa [hbelow] using hsome)
    cases hc' : c.entry? place with
    | none => rw [hdirectory, Option.none_or]
    | some entry =>
        cases entry with
        | directory => rfl
        | file bytes => cases h place _ hc' _ hdirectory
  · rw [hc place name hbelow, Option.some_or]

/-- The one reading, or the other where the first finds nothing. -/
def orElseMissing {α : Type} (x y : Except FileFault α) : Except FileFault α :=
  match x with
  | .error .missing => y
  | x => x

theorem orElseMissing_missing {α : Type} (x : Except FileFault α) : orElseMissing x (.error .missing) = x := by
  cases x with
  | ok a => rfl
  | error e => cases e <;> rfl

theorem Compatible.cases (h : Compatible c s) (place : Place) :
    c.entry? place = none ∨ s.entry? place = none ∨
      (∃ bytes bytes', c.entry? place = some (.file bytes) ∧ s.entry? place = some (.file bytes')) ∨
      c.entry? place = some .directory ∧ s.entry? place = some .directory := by
  cases hc : c.entry? place with
  | none => exact .inl rfl
  | some entry =>
      cases hs : s.entry? place with
      | none => exact .inr (.inl rfl)
      | some entry' =>
          have hkinds := h place entry hc entry' hs
          cases entry <;> cases entry' <;> simp [Entry.isFile] at hkinds ⊢

/-- Reading in the overlay is reading in the upper tree, or in the lower one where the upper one has nothing. -/
theorem readAlong_overlay (hc : c.Closed) (hs : s.Closed) (h : Compatible c s) (place : Place)
    (hplain : ∀ name ∈ names, Path.LeadsDown name) :
    (c.overlay s).readAlong place names = orElseMissing (c.readAlong place names) (s.readAlong place names) := by
  induction names generalizing place with
  | nil =>
      simp only [readAlong_nil, content, entry?_overlay]
      rcases h.cases place with hnone | hnone | ⟨bytes, bytes', hupper, hlower⟩ | ⟨hupper, hlower⟩
      · simp [hnone, orElseMissing]
      · simp [hnone, orElseMissing_missing]
      · simp [hupper, orElseMissing]
      · simp [hupper, orElseMissing]
  | cons name names ih =>
      rcases h.cases place with hnone | hnone | ⟨bytes, bytes', hupper, hlower⟩ | ⟨hupper, hlower⟩
      · rw [readAlong_of_none hnone hplain]
        refine readAlong_congr (fun below => ?_) hplain
        rw [ entry?_overlay, hc.below_none hnone, Option.none_or]
      · rw [readAlong_of_none hnone hplain, orElseMissing_missing]
        refine readAlong_congr (fun below => ?_) hplain
        rw [ entry?_overlay, hs.below_none hnone, Option.or_none]
      · rw [List.forall_mem_cons] at hplain
        simp only [readAlong_cons hplain.1, entry?_overlay, hupper, Option.some_or, orElseMissing]
      · rw [List.forall_mem_cons] at hplain
        simp only [readAlong_cons hplain.1, entry?_overlay, hupper, hlower, Option.some_or]
        split
        · rfl
        · exact ih _ hplain.2

/-- A path that holds an overlay reads as one path that holds the upper tree and then one that holds the lower one. -/
theorem Holds.read_overlay {upper lower : Path} (hc : c.Closed) (hs : s.Closed) (h : Compatible c s)
    (hupper : t.Holds upper c) (hlower : t.Holds lower s) (hroot : t'.Holds root (c.overlay s)) (hname : name.IsPlain)
    (hlength : ∀ r ∈ [upper, lower, root], (r.join name).utf8ByteSize ≤ maxPath) :
    t'.read (root.join name) = orElseMissing (t.read (upper.join name)) (t.read (lower.join name)) := by
  simp only [List.forall_mem_cons] at hlength
  obtain ⟨hlong, hlong', hlong'', -⟩ := hlength
  rw [hupper.read_join hname hlong, hlower.read_join hname hlong', hroot.read_join hname hlong'']
  split
  · rfl
  · exact readAlong_overlay hc hs h [] hname

end FileTree

end ApiManifest
