import ApiManifest.CommandLine.Arguments
import ApiManifest.Proofs.Dict
import ApiManifest.Proofs.Except
import ApiManifest.Proofs.Lists
import ApiManifest.Proofs.Text.Blank

/-!
# Settings from the variables alone

A command line without arguments takes its settings from the variables, as they stand. Reading the variables on their
own leaves out the blanks at the ends of a value, and takes higher numbers.
-/

namespace ApiManifest

open Text

namespace Settings

/-! ## Tidy values -/

/-- The text is not empty, and has no blanks at its ends. -/
def Tidy (value : String) : Prop :=
  Tight value.toList ∧ value ≠ ""

/-- What is left of a value without the blanks at its ends, if anything is. -/
def tidied (value? : Option String) : Option String :=
  (value?.map trimmed).filter (· ≠ "")

variable {value? fallback : Option String} {v w : String}

theorem trimmed_of_tight (h : Tight v.toList) : trimmed v = v := by
  have htrim : trim ([] ++ v.toList ++ []) = v.toList := trim_append blank_nil blank_nil h
  rw [List.nil_append, List.append_nil] at htrim
  rw [trimmed, htrim, String.ofList_toList]

theorem tidied_of_tidy (h : ∀ v ∈ value?, Tidy v) : tidied value? = value? := by
  cases value? with
  | none => rfl
  | some v =>
      obtain ⟨htight, hne⟩ := h v rfl
      rw [tidied, Option.map_some, trimmed_of_tight htight, Option.filter_some_pos (by simpa using hne)]

theorem given_of_tidy {lookup : String → Option String}
    (h : ∀ setting : Setting, ∀ v ∈ lookup setting.variable, Tidy v) :
    given lookup = fun setting => lookup setting.variable :=
  funext fun setting => tidied_of_tidy (h setting)

theorem tidied_some (v : String) :
    (Blank v.toList ∧ tidied (some v) = none) ∨ (tidied (some v) = some (trimmed v) ∧ Tidy (trimmed v)) := by
  rw [tidied, Option.map_some]
  by_cases h : trim v.toList = []
  · refine .inl ⟨trim_eq_nil_iff.mp h, Option.filter_some_neg ?_⟩
    simp [trimmed, h]
  · have hne : trimmed v ≠ "" := fun he => h (by simpa [trimmed] using he)
    refine .inr ⟨Option.filter_some_pos (by simpa using hne), ?_, hne⟩
    rw [trimmed, String.toList_ofList]
    exact tight_trim v.toList

instance (v : String) : Decidable (Tidy v) :=
  decidable_of_iff (trimmed v = v ∧ v ≠ "") <| by
    refine ⟨fun ⟨hsame, hne⟩ => ?_, fun h => ⟨trimmed_of_tight h.1, h.2⟩⟩
    rcases tidied_some v with ⟨hblank, -⟩ | ⟨-, htidy⟩
    · have hempty : trim v.toList = [] := trim_eq_nil_iff.mpr hblank
      exact absurd (by rw [← hsame, trimmed, hempty]) hne
    · exact hsame ▸ htidy

theorem tidy_of_or (hfallback : ∀ d ∈ fallback, ¬ Blank d.toList)
    (h : value?.or fallback = (tidied value?).or fallback) : ∀ v ∈ value?, Tidy v := by
  rintro v rfl
  rcases tidied_some v with ⟨hblank, hnone⟩ | ⟨hsome, htidy⟩
  · rw [hnone, Option.some_or, Option.none_or] at h
    exact absurd hblank (hfallback v h.symm)
  · rw [hsome, Option.some_or, Option.some_or] at h
    rw [Option.some.inj h]
    exact htidy

theorem tidy_of_getD {d : String} (hd : ¬ Blank d.toList) (h : value?.getD d = (tidied value?).getD d) :
    ∀ v ∈ value?, Tidy v := by
  have hsome : value?.or (some d) = (tidied value?).or (some d) := by rw [Option.or_some, Option.or_some, h]
  exact tidy_of_or (by simpa using hd) hsome

theorem tidy_of_extensionOf (h : (value?.map extensionOf).getD "tf" = ((tidied value?).map extensionOf).getD "tf") :
    ∀ v ∈ value?, Tidy v := by
  rintro v rfl
  have hpoint (c : Char) (hc : isBlank c = true) : decide (c = '.') = false := by
    rw [decide_eq_false_iff_not]
    rintro rfl
    cases hc
  rcases tidied_some v with ⟨hblank, hnone⟩ | ⟨hsome, htidy⟩
  · have ht : 't' ∈ (extensionOf v).toList := by
      rw [hnone] at h
      change extensionOf v = "tf" at h
      rw [h]
      decide
    rw [extensionOf, String.toList_ofList] at ht
    have hbad := hblank 't' ((List.dropWhile_sublist _).subset ht)
    exact absurd hbad (by decide)
  · obtain ⟨before, after, hb, ha, hcs⟩ := exists_trim v.toList
    rw [hsome] at h
    have hchars : v.toList.dropWhile (· = '.') = (trim v.toList).dropWhile (· = '.') := by
      simpa [extensionOf, trimmed, String.ofList_inj] using h
    generalize hcore : trim v.toList = core at hcs hchars
    obtain ⟨rfl, rfl⟩ := eq_nil_of_dropWhile (fun c hc => hpoint c (hb c hc)) (fun c hc => hpoint c (ha c hc))
      (hcs ▸ hchars)
    have hsame : trimmed v = v := by
      rw [trimmed, hcore, ← String.ofList_toList (s := v), hcs, List.nil_append, List.append_nil]
    exact hsame ▸ htidy

/-! ## Numbers -/

theorem not_isBlank_of_digit {c : Char} (h : '0' ≤ c) (h' : c ≤ '9') : isBlank c = false := by
  have hlow : 48 ≤ c.toNat := h
  have hhigh : c.toNat ≤ 57 := h'
  simp [isBlank]
  omega

theorem tight_of_forall {cs : List Char} (h : ∀ c ∈ cs, isBlank c = false) : Tight cs :=
  ⟨fun c hc => h c (List.mem_of_mem_head? hc), fun c hc => h c (List.mem_of_getLast? hc)⟩

def digitsOf (v : String) : List Char :=
  match v.toList with
  | '+' :: cs => cs
  | cs => cs

/-- The text is the number in decimal digits. -/
structure IsCount (v : String) (n : Nat) : Prop where
  ne : digitsOf v ≠ []
  digits : ∀ c ∈ digitsOf v, '0' ≤ c ∧ c ≤ '9'
  value : (digitsOf v).foldl (fun n c => n * 10 + (c.toNat - 48)) 0 = n
  pos : 1 ≤ n

theorem count?_eq_some {bound n : Nat} : count? bound v = some n ↔ IsCount v n ∧ n ≤ bound := by
  have hcount : count? bound v =
      let value := (digitsOf v).foldl (fun n c => n * 10 + (c.toNat - 48)) 0
      if (digitsOf v).isEmpty || (digitsOf v).any (fun c => c < '0' || '9' < c) || value < 1 || bound < value then none
      else some value := rfl
  rw [hcount]
  dsimp only
  split
  · rename_i hbad
    refine ⟨nofun, fun ⟨hc, hbound⟩ => ?_⟩
    have hnot : ¬ (digitsOf v).any (fun c => c < '0' || '9' < c) = true := by
      simpa using hc.digits
    have hnumber : n < 1 ∨ bound < n := by simpa [hc.ne, hnot, hc.value] using hbad
    exact absurd hc.pos (by omega)
  · rename_i hgood
    simp only [Bool.or_eq_true, not_or, decide_eq_true_eq, Nat.not_lt, List.isEmpty_iff] at hgood
    obtain ⟨⟨⟨hne, hdigits⟩, hpos⟩, hbound⟩ := hgood
    have hdigits' : ∀ c ∈ digitsOf v, '0' ≤ c ∧ c ≤ '9' := by simpa using hdigits
    constructor
    · intro h
      obtain rfl := Option.some.inj h
      exact ⟨⟨hne, hdigits', rfl, hpos⟩, hbound⟩
    · rintro ⟨hc, -⟩
      rw [hc.value]

theorem count?_of_count? {bound bound' n : Nat} (h : count? bound v = some n) :
    count? bound' v = if n ≤ bound' then some n else none := by
  obtain ⟨hc, -⟩ := count?_eq_some.mp h
  split
  · rename_i hle
    exact count?_eq_some.mpr ⟨hc, hle⟩
  · rename_i hgt
    refine Option.eq_none_iff_forall_ne_some.mpr fun m hm => ?_
    obtain ⟨hc', hle⟩ := count?_eq_some.mp hm
    exact hgt (hc.value.symm.trans hc'.value ▸ hle)

theorem IsCount.tidy {n : Nat} (h : IsCount v n) : Tidy v := by
  have hdigits : ∀ c ∈ digitsOf v, isBlank c = false := fun c hc =>
    not_isBlank_of_digit (h.digits c hc).1 (h.digits c hc).2
  have hsplit : v.toList = digitsOf v ∨ v.toList = '+' :: digitsOf v := by
    rw [digitsOf]
    split
    · rename_i hv
      exact .inr hv
    · exact .inl rfl
  have hblank : ∀ c ∈ v.toList, isBlank c = false := by
    rcases hsplit with hv | hv <;> rw [hv]
    · exact hdigits
    · exact List.forall_mem_cons.mpr ⟨by decide, hdigits⟩
  refine ⟨tight_of_forall hblank, ?_⟩
  rintro rfl
  exact h.ne rfl

/-! ## The two readings -/

theorem not_blank_of_customRootOf {isDirectory : Path → Bool} {manifest : Path} :
    ∀ d ∈ customRootOf isDirectory manifest, ¬ Blank d.toList := by
  intro d hd hblank
  have hm : 'm' ∈ (besideManifest manifest).toList := by
    rw [besideManifest, Path.join, if_neg (by decide)]
    split <;> simp
  rw [customRootOf] at hd
  split at hd
  · obtain rfl := Option.some.inj hd
    exact absurd (hblank 'm' hm) (by decide)
  · cases hd

variable {isDirectory : Path → Bool} {lookup : String → Option String} {s : Settings}

/-- The settings as the values of the variables tell them, with numbers up to a bound. -/
def ofValues (isDirectory : Path → Bool) (bound : Nat) (value? : Setting → Option String) (manifest : Path) :
    Settings :=
  { manifest
    outputPath := (value? .outputPath).getD "generated"
    templateRoot := (value? .templateRoot).getD "templates"
    customRoot := (value? .customRoot).or (customRootOf isDirectory manifest)
    extension := ((value? .extension).map extensionOf).getD "tf"
    concurrency := ((value? .concurrency).bind (count? bound)).getD 8 }

theorem ofLookup_eq_ok : ofLookup isDirectory lookup = .ok s ↔
    ∃ manifest, given lookup .manifest = some manifest ∧
      (∀ v ∈ given lookup .concurrency, (count? (Nat.pow 2 64 - 1) v).isSome = true) ∧
      s = ofValues isDirectory (Nat.pow 2 64 - 1) (given lookup) manifest := by
  rw [ofLookup]
  generalize Nat.pow 2 64 - 1 = bound
  cases given lookup .manifest with
  | none => exact ⟨nofun, fun ⟨_, h, _⟩ => nomatch h⟩
  | some manifest =>
      simp only [Option.some.injEq, exists_eq_left', ofValues]
      cases given lookup .concurrency with
      | none => exact ⟨fun h => ⟨nofun, (pure_eq_ok.mp h).symm⟩, fun h => pure_eq_ok.mpr h.2.symm⟩
      | some v =>
          simp only [Option.mem_some_iff, forall_eq', Option.bind_some]
          cases count? bound v with
          | none => exact ⟨nofun, fun h => nomatch h.1⟩
          | some n => exact ⟨fun h => ⟨rfl, (pure_eq_ok.mp h).symm⟩, fun h => pure_eq_ok.mpr h.2.symm⟩

end Settings

namespace CommandLine

open Settings

variable {isDirectory : Path → Bool} {environment : Dict String} {s : Settings}

theorem value?_eq_ok {setting : Setting} {o : Option String} :
    value? environment [] setting = .ok o ↔
      (∀ v ∈ environment.value? setting.variable, isSound setting v = true) ∧
        environment.value? setting.variable = o := by
  rw [value?, List.find?_nil]
  dsimp only
  cases environment.value? setting.variable with
  | none => simp
  | some v =>
      dsimp only
      split <;> simp [*]

theorem settings_eq_ok : settings isDirectory [] environment = .ok s ↔
    (∀ setting : Setting, ∀ v ∈ environment.value? setting.variable, isSound setting v = true) ∧
      ∃ manifest, environment.value? Setting.manifest.variable = some manifest ∧
        s = ofValues isDirectory maxConcurrency (fun setting => environment.value? setting.variable) manifest := by
  simp only [settings, readAll, ok_bind, bind_eq_ok, value?_eq_ok]
  constructor
  · rintro ⟨m, ⟨hm, rfl⟩, o, ⟨ho, rfl⟩, t, ⟨ht, rfl⟩, c, ⟨hc, rfl⟩, e, ⟨he, rfl⟩, j, ⟨hj, rfl⟩, h⟩
    refine ⟨fun setting => by cases setting <;> assumption, ?_⟩
    cases hmanifest : environment.value? Setting.manifest.variable with
    | none =>
        rw [hmanifest] at h
        cases h
    | some manifest =>
        rw [hmanifest] at h
        exact ⟨manifest, rfl, (pure_eq_ok.mp h).symm⟩
  · rintro ⟨hsound, manifest, hmanifest, rfl⟩
    refine ⟨_, ⟨hsound _, rfl⟩, _, ⟨hsound _, rfl⟩, _, ⟨hsound _, rfl⟩, _, ⟨hsound _, rfl⟩, _, ⟨hsound _, rfl⟩, _,
      ⟨hsound _, rfl⟩, ?_⟩
    rw [hmanifest]
    rfl

theorem isSound_of_tidy {setting : Setting} {v : String} (hv : Tidy v)
    (hcount : setting = .concurrency → (count? maxConcurrency v).isSome = true) : isSound setting v = true := by
  cases setting with
  | extension => rfl
  | concurrency => exact hcount rfl
  | _ => exact decide_eq_true hv.2

theorem settings_of_tidy (h : ofLookup isDirectory environment.value? = .ok s)
    (htidy : ∀ setting : Setting, ∀ v ∈ environment.value? setting.variable, Tidy v)
    (hle : s.concurrency ≤ maxConcurrency) : settings isDirectory [] environment = .ok s := by
  obtain ⟨manifest, hmanifest, hcounts, rfl⟩ := ofLookup_eq_ok.mp h
  rw [given_of_tidy htidy] at hmanifest hcounts hle ⊢
  generalize Nat.pow 2 64 - 1 = bound at hcounts hle ⊢
  dsimp only [ofValues] at hcounts hle
  have hcount : ∀ v ∈ environment.value? Setting.concurrency.variable, count? maxConcurrency v = count? bound v := by
    intro v hv
    obtain ⟨n, hn⟩ := Option.isSome_iff_exists.mp (hcounts v hv)
    rw [Option.mem_def.mp hv, Option.bind_some, hn, Option.getD_some] at hle
    rw [hn, count?_of_count? hn, if_pos hle]
  refine settings_eq_ok.mpr ⟨fun setting v hv => isSound_of_tidy (htidy setting v hv) ?_, manifest, hmanifest, ?_⟩
  · rintro rfl
    rw [hcount v hv]
    exact hcounts v hv
  · simp only [ofValues, Option.bind_congr hcount]

/-- The variables alone and the command line without arguments agree exactly where every value is tidy, and the number
of artifacts at once is not too high for the command line. -/
theorem settings_eq_iff (h : ofLookup isDirectory environment.value? = .ok s) :
    settings isDirectory [] environment = .ok s ↔
      (∀ setting : Setting, ∀ v ∈ environment.value? setting.variable, Tidy v) ∧ s.concurrency ≤ maxConcurrency := by
  refine ⟨fun hs => ?_, fun ⟨htidy, hle⟩ => settings_of_tidy h htidy hle⟩
  obtain ⟨manifest, hmanifest, -, rfl⟩ := ofLookup_eq_ok.mp h
  obtain ⟨hsound, manifest', hmanifest', heq⟩ := settings_eq_ok.mp hs
  generalize Nat.pow 2 64 - 1 = bound at heq ⊢
  simp only [ofValues, Settings.mk.injEq] at heq
  obtain ⟨rfl, houtput, htemplates, hcustom, hextension, hconcurrency⟩ := heq
  refine ⟨fun setting => ?_, ?_⟩
  · cases setting with
    | manifest =>
        have hsame : environment.value? Setting.manifest.variable =
            tidied (environment.value? Setting.manifest.variable) := hmanifest'.trans hmanifest.symm
        exact tidy_of_or (by nofun) (congrArg (Option.or · none) hsame)
    | outputPath => exact tidy_of_getD (fun hb => absurd (hb 'g' (by decide)) (by decide)) houtput.symm
    | templateRoot => exact tidy_of_getD (fun hb => absurd (hb 't' (by decide)) (by decide)) htemplates.symm
    | customRoot => exact tidy_of_or not_blank_of_customRootOf hcustom.symm
    | extension => exact tidy_of_extensionOf hextension.symm
    | concurrency =>
        intro v hv
        obtain ⟨n, hn⟩ := Option.isSome_iff_exists.mp (hsound .concurrency v hv)
        exact (count?_eq_some.mp hn).1.tidy
  · dsimp only [ofValues]
    rw [hconcurrency]
    cases environment.value? Setting.concurrency.variable with
    | none => decide
    | some v =>
        rw [Option.bind_some]
        cases hn : count? maxConcurrency v with
        | none => decide
        | some n => exact (count?_eq_some.mp hn).2

/-- Tidy values are taken as they are read without a command line, but for a number that is too high: it is refused. -/
theorem settings_of_ofLookup (h : ofLookup isDirectory environment.value? = .ok s)
    (htidy : ∀ setting : Setting, ∀ v ∈ environment.value? setting.variable, Tidy v) :
    (s.concurrency ≤ maxConcurrency → settings isDirectory [] environment = .ok s) ∧
      (maxConcurrency < s.concurrency → ∃ v, environment.value? Setting.concurrency.variable = some v ∧
        settings isDirectory [] environment = .error (.usage (.invalid .concurrency v))) := by
  refine ⟨settings_of_tidy h htidy, fun hgt => ?_⟩
  obtain ⟨manifest, -, hcounts, rfl⟩ := ofLookup_eq_ok.mp h
  rw [given_of_tidy htidy] at hcounts hgt
  generalize Nat.pow 2 64 - 1 = bound at hcounts hgt
  dsimp only [ofValues] at hcounts hgt
  cases hv : environment.value? Setting.concurrency.variable with
  | none =>
      rw [hv, Option.bind_none, Option.getD_none] at hgt
      exact absurd hgt (by decide)
  | some v =>
      obtain ⟨n, hn⟩ := Option.isSome_iff_exists.mp (hcounts v hv)
      rw [hv, Option.bind_some, hn, Option.getD_some] at hgt
      have hunsound : isSound .concurrency v = false := by
        rw [isSound, count?_of_count? hn, if_neg (Nat.not_le.mpr hgt)]
        rfl
      have hothers (setting : Setting) (hne : setting ≠ .concurrency) :
          value? environment [] setting = .ok (environment.value? setting.variable) :=
        value?_eq_ok.mpr ⟨fun w hw => isSound_of_tidy (htidy setting w hw) fun he => absurd he hne, rfl⟩
      have hlast : value? environment [] .concurrency = .error (.usage (.invalid .concurrency v)) := by
        simp [value?, hv, hunsound]
      refine ⟨v, rfl, ?_⟩
      simp only [settings, readAll, ok_bind, hothers .manifest nofun, hothers .outputPath nofun,
        hothers .templateRoot nofun, hothers .customRoot nofun, hothers .extension nofun, hlast, error_bind]

theorem concurrency_taken :
    let environment (count : String) : Dict String :=
      [("APPSYNC_MANIFEST", "api.yml"), ("APPSYNC_OUTPUT_EXTENSION", ".hcl"), ("APPSYNC_RENDER_CONCURRENCY", count)]
    settings (fun _ => false) [] (environment "4294967295") =
        .ok { manifest := "api.yml", extension := "hcl", concurrency := 4294967295 } ∧
      ∃ v, settings (fun _ => false) [] (environment "4294967296") = .error (.usage (.invalid .concurrency v)) := by
  intro environment
  have htidy {environment : Dict String} (h : ∀ e ∈ environment, Tidy e.2) (setting : Setting) :
      ∀ v ∈ environment.value? setting.variable, Tidy v :=
    fun _ hv => h _ (Dict.mem_of_value? hv)
  have hlow : ofLookup (fun _ => false) (environment "4294967295").value? =
      .ok { manifest := "api.yml", extension := "hcl", concurrency := 4294967295 } := by rfl
  have hhigh : ofLookup (fun _ => false) (environment "4294967296").value? =
      .ok { manifest := "api.yml", extension := "hcl", concurrency := 4294967296 } := by rfl
  obtain ⟨v, -, hrefused⟩ := (settings_of_ofLookup hhigh (htidy (by decide))).2 (by decide)
  exact ⟨(settings_of_ofLookup hlow (htidy (by decide))).1 (by decide), v, hrefused⟩

/-- There are settings in the variables, and they are not those that the command line takes from them. -/
def Differ (environment : Dict String) : Prop :=
  ∃ s, ofLookup (fun _ => false) environment.value? = .ok s ∧ settings (fun _ => false) [] environment ≠ .ok s

theorem settings_differ :
    Differ [("APPSYNC_MANIFEST", "api.yml"), ("APPSYNC_OUTPUT_PATH", " out ")] ∧
      Differ [("APPSYNC_MANIFEST", "api.yml"), ("APPSYNC_OUTPUT_PATH", "")] ∧
      Differ [("APPSYNC_MANIFEST", "api.yml"), ("APPSYNC_RENDER_CONCURRENCY", "4294967296")] := by
  have hne {environment : Dict String} {s : Settings}
      (h : (settings (fun _ => false) [] environment).toOption ≠ some s) :
      settings (fun _ => false) [] environment ≠ .ok s :=
    fun he => h (congrArg Except.toOption he)
  exact ⟨⟨_, rfl, hne (by decide)⟩, ⟨_, rfl, hne (by decide)⟩, ⟨_, rfl, hne (by decide)⟩⟩

end CommandLine

end ApiManifest
