import ApiManifest.Manifest.Signature
import ApiManifest.Proofs.Dict
import ApiManifest.Proofs.Json.Grammar

/-!
# Key fields as JSON texts

The texts that a resolver gives of its key fields are JSON, whatever characters the names have. One denotes the list of
the names, the other an object of the distinct names, each in the place of the first key of that name and with the type
of the last.
-/

namespace ApiManifest.ResolverOf

open Json (IsText)

variable {keys : List Field}

/-- Distinct names in the order of their first keys, each with the type of the last key of the name. -/
structure Collected (keys : List Field) (entries : List (String × String)) : Prop where
  names : entries.map (·.1) = (keys.map (·.name)).eraseDups
  types : ∀ e ∈ entries, ∃ before key after, keys = before ++ key :: after ∧ key.name = e.1 ∧ key.typeName = e.2 ∧
    ∀ later ∈ after, later.name ≠ e.1

theorem collected_ofList (keys : List Field) :
    Collected keys (Dict.ofList (keys.map fun f => (f.name, f.typeName))) where
  names := by
    have hnames := Dict.names_ofList (keys.map fun f => (f.name, f.typeName))
    rwa [List.map_map] at hnames
  types := by
    intro e he
    have hvalue := Dict.value?_of_mem (Dict.nodup_names_ofList _) he
    obtain ⟨before, after, hsplit, hafter⟩ := Dict.exists_of_value?_ofList hvalue
    obtain ⟨front, back, rfl, _, hback⟩ := List.map_eq_append_iff.mp hsplit
    obtain ⟨key, rest, rfl, hkey, rfl⟩ := List.map_eq_cons_iff.mp hback
    obtain ⟨hname, htype⟩ := Prod.mk.inj hkey
    exact ⟨front, key, rest, rfl, hname, htype, fun later h => hafter _ (List.mem_map_of_mem h)⟩

theorem numberless_strings {α : Type} (text : α → String) (as : List α) :
    Json.NumberlessItems (as.map fun a => .string (text a)) := by
  induction as with
  | nil => trivial
  | cons a as ih => exact ⟨trivial, ih⟩

theorem numberless_entries (entries : List (String × String)) :
    Json.NumberlessMembers (entries.map fun e => (e.1, .string e.2)) := by
  induction entries with
  | nil => trivial
  | cons e entries ih => exact ⟨trivial, ih⟩

theorem isText_iff {s : String} {value : Json} (h : IsText s value) (j : Json) : IsText s j ↔ j = value := by
  constructor
  · exact h.unique
  · rintro rfl
    exact h

/-- The list of the key fields is a JSON text that denotes the array of their names and nothing else, and their map one
that denotes the object of their distinct names with the last types. Reading finds these values again. -/
theorem keyFields_texts (r : Resolver) :
    let names : Json := .array (r.keyFields.map fun f => .string f.name)
    (∀ j, IsText r.keyFieldList.compact j ↔ j = names) ∧ Json.parse? r.keyFieldList.compact = some names ∧
    ∃ entries, Collected r.keyFields entries ∧
      let object : Json := .object (entries.map fun e => (e.1, .string e.2))
      (∀ j, IsText r.keyFieldMap.compact j ↔ j = object) ∧ Json.parse? r.keyFieldMap.compact = some object := by
  have hlist : IsText r.keyFieldList.compact r.keyFieldList := Json.isText_compact (numberless_strings _ _)
  have hmap : IsText r.keyFieldMap.compact r.keyFieldMap := Json.isText_compact (numberless_entries _)
  exact ⟨isText_iff hlist, hlist.parse?, _, collected_ofList r.keyFields, isText_iff hmap, hmap.parse?⟩

/-- A name with a quote in it, twice a key. -/
example :
    let r : Resolver := { action := "get", keyFields := [.typed "\"id" default, { name := "tab\t" },
      .typed "\"id" { name := "ID", nonNullable := true }] }
    r.keyFieldList.compact = "[\"\\\"id\",\"tab\\t\",\"\\\"id\"]" ∧
      r.keyFieldMap.compact = "\x7b\"\\\"id\":\"ID\",\"tab\\t\":\"String\"\x7d" := by
  decide

end ApiManifest.ResolverOf
