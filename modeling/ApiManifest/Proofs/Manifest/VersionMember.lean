import ApiManifest.Proofs.Manifest.Strict
import ApiManifest.Proofs.Yaml.Stream

/-!
# The member that a version's entry gives

In a document that fits a manifest, an entry whose key ends like the version's is the manifest's own version: below its
top no record has a member of such a name, and where any name may stand, a collection has to follow.
-/

namespace ApiManifest

open Yaml (Node versionWord)

/-! ## Below the top -/

def Want.IsCollection : Want → Bool
  | .record _ | .list _ | .dict _ => true
  | _ => false

/-- No manifest is wanted there or below, and dictionaries are ones of collections. -/
def Want.IsInner : Want → Bool
  | .string | .flag | .type | .keyField => true
  | .record k => k ≠ .manifest
  | .option w | .list w => w.IsInner
  | .dict w => w.IsCollection && w.IsInner

theorem Record.isInner_of_mem {k : Record} {m : Member} (h : m ∈ k.members) : m.want.IsInner = true := by
  cases k <;> revert m <;> decide

/-- Only the manifest has a member whose name ends like the version's. -/
theorem Record.eq_version {k : Record} : ∀ m ∈ k.members, ∀ name ∈ m.names, versionWord <:+ name.toList →
    k = .manifest ∧ m = Members.describe ManifestMember.want .version := by
  cases k <;> decide

theorem notMem_of_ofDigits {base : Nat} {cs : List Char} {n : Nat} (h : Yaml.Number.ofDigits? base cs = some n) :
    'v' ∉ cs := by
  unfold Yaml.Number.ofDigits? at h
  split at h
  · cases h
  · generalize 0 = start at h
    clear * - h
    induction cs generalizing start with
    | nil => exact List.not_mem_nil
    | cons c cs ih =>
        simp only [List.foldlM_cons, Option.bind_eq_bind, Option.bind_eq_some_iff] at h
        obtain ⟨next, ⟨d, hd, _⟩, h⟩ := h
        refine List.not_mem_cons_of_ne_of_not_mem ?_ (ih next h)
        rintro rfl
        have hnone : Json.hexValue 'v' = none := by decide
        rw [hnone] at hd
        cases hd

theorem notMem_of_natural {cs : List Char} {n : Nat} (h : Yaml.Number.natural? cs = some n) : 'v' ∉ cs := by
  unfold Yaml.Number.natural? at h
  split at h
  · simpa using notMem_of_ofDigits h
  · simpa using notMem_of_ofDigits h
  · simpa using notMem_of_ofDigits h
  · split at h
    · cases h
    · exact notMem_of_ofDigits h

theorem notMem_of_whole {cs : List Char} {i : Int} (h : Yaml.Number.whole? cs = some i) : 'v' ∉ cs := by
  unfold Yaml.Number.whole? at h
  split at h <;> obtain ⟨_, h, _⟩ := Option.map_eq_some_iff.mp h <;> obtain ⟨n, hn, _⟩ := Option.bind_eq_some_iff.mp h
  · simpa using notMem_of_natural hn
  · simpa using notMem_of_natural hn
  · exact notMem_of_natural hn

theorem fraction_ne_whole {cs : List Char} {i : Int} : Yaml.Number.fraction? cs ≠ some (.whole i) := by
  have hfinite (negative : Bool) (cs : List Char) : Yaml.Number.finite? negative cs ≠ some (.whole i) := by
    intro h
    simp only [Yaml.Number.finite?, Option.bind_eq_bind, Option.bind_eq_some_iff, Option.pure_def,
      Option.some.injEq, reduceCtorEq, and_false, exists_false] at h
  unfold Yaml.Number.fraction?
  split <;> split
  · simp
  · exact hfinite _ _
  · simp
  · exact hfinite _ _
  · simp
  · split
    · simp
    · exact hfinite _ _

theorem exists_whole_of_number {cs : List Char} {i : Int}
    (h : Yaml.Meaning.ofNumberText cs = .number (.whole i)) : ∃ j, Yaml.Number.whole? cs = some j := by
  unfold Yaml.Meaning.ofNumberText at h
  split at h
  · rename_i j hj
    exact ⟨j, (Option.filter_eq_some_iff.mp hj).1⟩
  · split at h
    · rename_i hn
      cases h
      split at hn
      · cases hn
      · exact absurd hn fraction_ne_whole
    · cases h

theorem exists_whole_of_meaning {s : Yaml.Scalar} {i : Int} (h : s.meaning = .number (.whole i)) :
    ∃ j, Yaml.Number.whole? s.text.toList = some j := by
  have huntagged (h : s.untagged = .number (.whole i)) : ∃ j, Yaml.Number.whole? s.text.toList = some j := by
    unfold Yaml.Scalar.untagged Yaml.Meaning.ofPlain at h
    split at h
    · split at h
      · cases h
      · split at h
        · cases h
        · exact exists_whole_of_number h
    · cases h
  unfold Yaml.Scalar.meaning at h
  split at h
  · exact huntagged h
  split at h
  · exact huntagged h
  split at h
  · cases hbool : Yaml.boolOfText s.text <;> rw [hbool] at h <;> cases h
  split at h
  · cases hwhole : Yaml.Number.whole? s.text.toList with
    | none => rw [hwhole] at h; cases h
    | some j => exact ⟨j, rfl⟩
  split at h
  · cases hfraction : Yaml.Number.fraction? s.text.toList with
    | none => rw [hfraction] at h; cases h
    | some n =>
        rw [hfraction] at h
        cases h
        exact absurd hfraction fraction_ne_whole
  split at h
  · split at h <;> cases h
  · cases h

/-- A key that ends like the version's names nothing but the version, and that by its name. -/
theorem Names.eq_version {k : Record} {r : Reading} {s : Yaml.Scalar} {m : Member} (h : Names k r (.scalar s) m)
    (hs : versionWord <:+ s.text.toList) : k = .manifest ∧ s.text = "version" := by
  cases h with
  | name hm hname =>
      obtain ⟨rfl, rfl⟩ := Record.eq_version _ hm _ hname hs
      exact ⟨rfl, List.mem_singleton.mp hname⟩
  | number hnumber _ =>
      obtain ⟨j, hj⟩ := exists_whole_of_meaning hnumber
      exact absurd (hs.subset List.mem_cons_self) (notMem_of_whole hj)

/-! ## Entries below the top -/

namespace Fits

variable {r : Reading} {w : Want}

theorem vacant (h : Fits r w (.scalar s)) (hw : w.IsCollection = true) : Node.isVacant r s = true := by
  cases h with
  | vacantRecord hs | vacantList hs | vacantDict hs => exact hs
  | string | flag | type | shorthand | keyField | absent | present => cases hw

theorem not_unreadable : ¬ Fits r w .unreadable := by
  intro h
  induction w generalizing r with
  | option w ih =>
      cases h with
      | present h => exact ih h
  | keyField =>
      cases h with
      | keyField h => cases h
  | string | flag | type | record | list | dict => cases h

theorem mapping_cases {tag : Option Yaml.Tag} {entries : List (Node × Node)} (h : Fits r w (.mapping tag entries))
    (hr : r ≠ .value) (hw : w.IsInner = true) :
    (∃ r' k, r' ≠ .value ∧ k ≠ .manifest ∧ FitsEntries r' k [] entries) ∨
      ∃ r' w', r' ≠ .value ∧ w'.IsCollection = true ∧ w'.IsInner = true ∧
        ∀ e ∈ entries, Fits r' .string e.1 ∧ Fits r' w' e.2 := by
  induction w generalizing r with
  | string | flag | type | list => cases h
  | keyField =>
      cases h with
      | keyField h =>
          cases h with
          | record h => exact .inl ⟨.entry, .field, nofun, nofun, h⟩
  | record k =>
      cases h with
      | record h => exact .inl ⟨r, k, hr, by simpa [Want.IsInner] using hw, h⟩
  | option w ih =>
      cases h with
      | present h => exact ih h hr hw
  | dict w =>
      cases h with
      | dict hkey h =>
          obtain ⟨hcollection, hinner⟩ := Bool.and_eq_true_iff.mp hw
          exact .inr ⟨r, w, hr, hcollection, hinner, fun e he => ⟨hkey e he, h e he⟩⟩

theorem sequence_cases {tag : Option Yaml.Tag} {items : List Node} (h : Fits r w (.sequence tag items))
    (hr : r ≠ .value) (hw : w.IsInner = true) :
    (∃ s, items = [.scalar s]) ∨ ∀ n ∈ items, ∃ r' w', r' ≠ .value ∧ w'.IsInner = true ∧ Fits r' w' n := by
  have hitems {k : Record} (h : FitsItems k.members items) :
      ∀ n ∈ items, ∃ r' w', r' ≠ .value ∧ w'.IsInner = true ∧ Fits r' w' n := by
    intro n hn
    obtain ⟨i, hi⟩ := List.mem_iff_getElem?.mp hn
    have hlt := Nat.lt_of_lt_of_le (List.getElem?_eq_some_iff.mp hi).1 h.length_le
    exact ⟨.entry, _, nofun, Record.isInner_of_mem (List.getElem_mem hlt),
      h.of_getElem? hi (List.getElem?_eq_getElem hlt)⟩
  induction w generalizing r with
  | string | flag | dict => cases h
  | type =>
      cases h with
      | listType _ s => exact .inl ⟨s, rfl⟩
  | keyField =>
      cases h with
      | keyField h =>
          cases h with
          | listed h => exact .inr (hitems h)
  | record k =>
      cases h with
      | listed h => exact .inr (hitems h)
  | option w ih =>
      cases h with
      | present h => exact ih h hr hw
  | list w =>
      cases h with
      | list h => exact .inr fun n hn => ⟨r, w, hr, hw, h n hn⟩

end Fits

theorem not_isVacant {r : Reading} {x : String} (hr : r ≠ .value) (hx : x.toList.head? = some 'v') :
    Node.isVacant r { text := x } = false := by
  cases r with
  | text =>
      have hne : x ≠ "" := by
        rintro rfl
        cases hx
      simpa [Node.isVacant] using hne
  | value => exact absurd rfl hr
  | entry => rfl

/-- No document that holds such an entry fits below the top. -/
theorem not_fits_of_holds {n : Node} {t x : String} (h : n.Holds t x) (ht : versionWord <:+ t.toList)
    (hx : x.toList.head? = some 'v') {r : Reading} {w : Want} (hr : r ≠ .value) (hw : w.IsInner = true) :
    ¬ Fits r w n := by
  induction h generalizing r w with
  | unreadable => exact Fits.not_unreadable
  | @entry tag entries k hk hmem =>
      intro hfits
      rcases hfits.mapping_cases hr hw with ⟨r', k', _, hk', hentries⟩ | ⟨r', w', hr', hcollection, _, hentries⟩
      · obtain ⟨m, hname, _⟩ := hentries.of_mem hmem
        have hmanifest : k' = .manifest := by
          cases k with
          | scalar s => exact (hname.eq_version (by rwa [hk s rfl])).1
          | _ => cases hname
        exact hk' hmanifest
      · have hvacant := (hentries _ hmem).2.vacant hcollection
        rw [not_isVacant hr' hx] at hvacant
        cases hvacant
  | @key tag entries k v hk hmem ih =>
      intro hfits
      rcases hfits.mapping_cases hr hw with ⟨r', k', hr', _, hentries⟩ | ⟨r', w', hr', _, _, hentries⟩
      · obtain ⟨m, hname, _⟩ := hentries.of_mem hmem
        cases k with
        | scalar s => cases hk
        | _ => cases hname
      · exact ih hr' rfl (hentries _ hmem).1
  | value _ hmem ih =>
      intro hfits
      rcases hfits.mapping_cases hr hw with ⟨r', k', hr', _, hentries⟩ | ⟨r', w', hr', _, hinner, hentries⟩
      · obtain ⟨m, hname, _, hvalue⟩ := hentries.of_mem hmem
        exact ih hr' (Record.isInner_of_mem hname.mem) hvalue
      · exact ih hr' hinner (hentries _ hmem).2
  | @item tag items n hn hmem ih =>
      intro hfits
      rcases hfits.sequence_cases hr hw with ⟨s, rfl⟩ | hitems
      · obtain rfl := List.mem_singleton.mp hmem
        cases hn
      · obtain ⟨r', w', hr', hw', hn⟩ := hitems n hmem
        exact ih hr' hw' hn

/-! ## The entry at the top -/

namespace Manifest

variable {m m' : Manifest} {n : Node}

theorem setMember_version {r : Reading} {member : ManifestMember} (h : setMember r member n m = .ok m')
    (hne : member ≠ .version) : m'.version = m.version := by
  cases member with
  | version => exact absurd rfl hne
  | apiNameSuffix | enums | objects | queries | mutations | sources =>
      obtain ⟨_, _, h⟩ := bind_eq_ok.mp h
      cases h
      rfl

theorem read_version {r : Reading} {entries : List (Node × Node)} {seen seen' : List ManifestMember}
    (h : Members.read r (setMember r) entries seen m = .ok (seen', m')) :
    (.version ∈ seen → m'.version = m.version) ∧
      ∀ e ∈ entries, Members.ofKey r e.1 = .ok ManifestMember.version → e.2.readString r = .ok m'.version := by
  induction entries generalizing seen m with
  | nil =>
      cases h
      exact ⟨fun _ => rfl, nofun⟩
  | cons e entries ih =>
      simp only [Members.read, bind_eq_ok] at h
      obtain ⟨member, hkey, seen₁, hnote, m₁, hset, h⟩ := h
      obtain ⟨hkept, hrest⟩ := ih h
      unfold Members.note at hnote
      split at hnote
      · cases hnote
      rename_i hnew
      cases hnote
      constructor
      · intro hseen
        have hne : member ≠ .version := by
          rintro rfl
          exact hnew (List.contains_iff_mem.mpr hseen)
        rw [hkept (List.mem_cons_of_mem _ hseen), setMember_version hset hne]
      · rw [List.forall_mem_cons]
        refine ⟨fun hversion => ?_, hrest⟩
        obtain rfl := Except.ok.inj (hkey.symm.trans hversion)
        obtain ⟨text, htext, hset⟩ := bind_eq_ok.mp hset
        cases hset
        rw [hkept List.mem_cons_self]
        exact htext

/-- The version of a manifest is the one that its document holds after a key that ends like the version's. -/
theorem version_eq_of_holds {t x : String} (h : decode .text n = .ok m) (hn : n.Holds t x)
    (ht : versionWord <:+ t.toList) (hx : x.toList.head? = some 'v') : m.version = x := by
  have hfits := Manifest.fits h
  simp only [decode, bind_eq_ok] at h
  obtain ⟨entries, hentries, ⟨seen, m'⟩, hread, _, _, h⟩ := h
  cases h
  cases n with
  | scalar s => cases hn
  | unreadable => cases hentries
  | sequence tag items => cases hentries
  | mapping tag es =>
      cases hentries
      cases hfits with
      | record hfits =>
          cases hn with
          | @entry _ _ k hk hmem =>
              obtain ⟨member, hname, _⟩ := hfits.of_mem hmem
              cases k with
              | scalar s =>
                  obtain ⟨_, htext⟩ := hname.eq_version (by rwa [hk s rfl])
                  have hkey : Members.ofKey .text (.scalar s) = .ok ManifestMember.version := by
                    have hfound : Members.ofName? s.text = some ManifestMember.version := by
                      rw [htext]
                      decide
                    simp [Members.ofKey, Node.readString, hfound, bind, Except.bind]
                  exact (Except.ok.inj ((read_version hread).2 _ hmem hkey)).symm
              | _ => cases hname
          | @key _ _ k v hk hmem =>
              obtain ⟨member, hname, _⟩ := hfits.of_mem hmem
              cases k with
              | scalar s => cases hk
              | _ => cases hname
          | value hv hmem =>
              obtain ⟨member, hname, _, hvalue⟩ := hfits.of_mem hmem
              exact absurd hvalue (not_fits_of_holds hv ht hx (by decide) (Record.isInner_of_mem hname.mem))

end Manifest

end ApiManifest
