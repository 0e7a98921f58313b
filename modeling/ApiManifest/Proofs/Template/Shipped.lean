import ApiManifest.Proofs.Files.Join
import ApiManifest.Proofs.Template.Cache
import ApiManifest.Proofs.Template.Printing
import ApiManifest.Proofs.Template.Totality
import ApiManifest.Proofs.Text.Utf8
import ApiManifest.Template.Shipped

/-!
# The templates that come with the library

Below a directory that holds them they are found and compiled to the nodes that they have been written from, and
they name nothing that the resolvers and the sources which they are for do not give.
-/

namespace ApiManifest

open Template (Scope Node Legible Plain areWithin nodeTokens lookup holds)

/-! ## Reading them -/

namespace ShippedTemplates

theorem isPath_ofList {cs : List Char} (h : Text.isDottedIdentifier cs = true) : Text.IsPath (String.ofList cs).toList := by
  rw [String.toList_ofList]
  exact Text.isDottedIdentifier_iff.mp h

theorem legible : ∀ e ∈ files, Legible (nodeTokens e.2) := by
  simp only [files, List.forall_mem_cons, wrapper, dynamoSource, dynamoGet, dynamoGetNested, dynamoList, dynamoListNested,
    dynamoInsert, dynamoUpdate, dynamoDelete, result, page, items, lambdaSource, lambdaCall, lambdaCallNested, sqlSource,
    nodeTokens, Node.tokens, List.cons_append, List.nil_append, List.append_nil, List.isEmpty_cons, List.isEmpty_nil,
    if_true, Bool.false_eq_true, if_false]
  and_intros
  all_goals repeat' first
    | exact .nil
    | refine .textTag ?_ ?_ ?_
    | refine .text ?_
    | refine .tag ?_ ?_
    | refine Plain.append ?_ ?_
    | exact Template.plain_ofList (by decide)
    | exact .value (isPath_ofList (by decide)) (by decide)
    | exact .include (isPath_ofList (by decide))
    | exact .ifStart (isPath_ofList (by decide))
    | exact .ifElse
    | exact .ifEnd
    | exact List.forall_mem_nil _

end ShippedTemplates

def TemplateKey.standard (kind : SourceKind) (action : Action) (isNested : Bool) : TemplateKey :=
  { kind, template := action.name, isNested }

/-- Below the directory stand the shipped templates, and no others for the requests of standard actions. -/
structure ShippedTemplates.Installed (reader : Reader) (root : Path) : Prop where
  held : ∀ e ∈ files, reader (root.join e.1) = .ok (Text.Utf8.encode (Template.printNodes e.2))
  absent : ∀ kind action isNested, let name := (TemplateKey.standard kind action isNested).requestPath
    name ∉ Dict.names files → reader (root.join name) = .error .missing

namespace ShippedTemplates.Installed

variable {reader : Reader} {root : Path}

theorem load (h : Installed reader root) {name : Path} {nodes : List Node} (hname : Dict.value? files name = some nodes) :
    TemplateRoots.load reader { standard := root } name = .ok { name := root.join name, nodes } := by
  have hmem := Dict.mem_of_value? hname
  have hfirst : TemplateRoots.readFirst reader [root.join name] =
      .ok (some (root.join name, Template.printNodes nodes)) := by
    simp only [TemplateRoots.readFirst, h.held _ hmem, Text.Utf8.decode?_encode, String.ofList_toList]
  have hparse := Template.parse_printNodes (legible _ hmem)
  simp only [TemplateRoots.load, TemplateRoots.read, TemplateRoots.candidates, Option.toList_none, List.nil_append,
    List.map_singleton, hfirst]
  simp only [Template.compile, hparse, bind, Except.bind, pure, Except.pure, Except.map]

theorem load_absent {name : Path} (hname : reader (root.join name) = .error .missing) :
    TemplateRoots.load reader { standard := root } name = .error (.templateMissing name [root.join name]) := by
  have hfirst : TemplateRoots.readFirst reader [root.join name] = .ok none := by
    simp only [TemplateRoots.readFirst, hname]
  simp only [TemplateRoots.load, TemplateRoots.read, TemplateRoots.candidates, Option.toList_none, List.nil_append,
    List.map_singleton, hfirst]
  rfl

end ShippedTemplates.Installed

/-! ## Where nothing else stands -/

namespace ShippedTemplates

theorem isAbsolute_of_mem_names : ∀ name ∈ Dict.names files, Path.isAbsolute name = false := by
  simp only [files, Dict.names, List.map_cons, List.map_nil, List.forall_mem_cons]
  and_intros
  all_goals first
    | exact Path.isAbsolute_ofList_cons (by decide)
    | exact List.forall_mem_nil _

theorem isAbsolute_requestPath (kind : SourceKind) (action : Action) (isNested : Bool) :
    (TemplateKey.standard kind action isNested).requestPath.isAbsolute = false := by
  have hfile : Path.isAbsolute (TemplateKey.standard kind action isNested).fileName = false := by
    simp only [TemplateKey.fileName, TemplateKey.standard, String.append_assoc, Path.isAbsolute_append action.name]
    cases action <;> exact Path.isAbsolute_ofList_cons (by decide)
  refine Path.isAbsolute_join (Path.isAbsolute_join ?_ ?_) hfile
  · cases kind <;> exact Path.isAbsolute_ofList_cons (by decide)
  · exact Path.isAbsolute_ofList_cons (by decide)

theorem nodup_names : (Dict.names files).Nodup := by
  decide +kernel

def below (root : Path) : Dict (List Node) :=
  files.map fun e => (root.join e.1, e.2)

theorem names_below (root : Path) : (below root).names = (Dict.names files).map root.join := by
  simp only [below, Dict.names, List.map_map]
  rfl

theorem nodup_names_below (root : Path) : (below root).names.Nodup := by
  rw [names_below]
  refine List.pairwise_map.mpr (nodup_names.imp_of_mem fun {p q} hp hq hne => ?_)
  rwa [ne_eq, Path.join_inj (isAbsolute_of_mem_names p hp) (isAbsolute_of_mem_names q hq)]

def reader (root : Path) : Reader := fun p =>
  match (below root).value? p with
  | some nodes => .ok (Text.Utf8.encode (Template.printNodes nodes))
  | none => .error .missing

theorem installed_reader (root : Path) : Installed (reader root) root where
  held e he := by
    rw [reader, Dict.value?_of_mem (nodup_names_below root) (List.mem_map_of_mem he)]
  absent kind action isNested := by
    intro name hname
    rw [reader]
    split
    · rename_i hvalue
      have hmem : root.join name ∈ (below root).names := List.mem_map_of_mem (Dict.mem_of_value? hvalue)
      rw [names_below] at hmem
      obtain ⟨p, hp, hjoin⟩ := List.mem_map.mp hmem
      rw [Path.join_inj (isAbsolute_of_mem_names p hp) (isAbsolute_requestPath kind action isNested)] at hjoin
      subst hjoin
      exact absurd hp hname
    · rfl

end ShippedTemplates

/-! ## What they name -/

namespace ShippedTemplates

def resolverScope : Scope where
  paths := ["identifier", "signature", "parentType", "fieldName", "action", "argsSource", "keyFieldsList",
    "scanIndexForward", "hashKey", "sortKey", "parentKey", "dataSource.identifier"]

def wrapperScope : Scope :=
  { resolverScope with partials := ["request", "response"] }

/-- What the template of a source counts on. A sort key has a name and a type if there is one. -/
def sourceScope : SourceKind → Scope
  | .dynamo =>
    { paths := ["apiName", "dataSource.name", "dataSource.identifier", "dataSource.hashKey.field", "dataSource.hashKey.type"]
      guarded := [("dataSource.sortKey", ["dataSource.sortKey.field", "dataSource.sortKey.type"])] }
  | .sql => { paths := ["dataSource.identifier", "dataSource.database"] }
  | .lambda => { paths := ["dataSource.identifier", "dataSource.functionArn", "dataSource.functionName"] }

def holdsWithin (name : Path) (s : Scope) : Bool :=
  (Dict.value? files name).any (areWithin s)

theorem holdsWithin_wrapper : holdsWithin wrapperPath wrapperScope = true := by
  decide +kernel

theorem holdsWithin_source (kind : SourceKind) : holdsWithin kind.templatePath (sourceScope kind) = true := by
  cases kind <;> decide +kernel

/-- Tables and functions have templates for what is called directly, and for nested reading. -/
def IsSupplied (kind : SourceKind) (action : Action) (isNested : Bool) : Prop :=
  (kind = .dynamo ∨ kind = .lambda) ∧ (isNested = false ∨ action = .get ∨ action = .list)

instance (kind : SourceKind) (action : Action) (isNested : Bool) : Decidable (IsSupplied kind action isNested) :=
  inferInstanceAs (Decidable (_ ∧ _))

theorem standard_cases (kind : SourceKind) {action : Action} (hc : action ≠ .custom) (isNested : Bool) :
    let key := TemplateKey.standard kind action isNested
    (IsSupplied kind action isNested ∧
      holdsWithin key.requestPath resolverScope = true ∧ holdsWithin key.responsePath resolverScope = true) ∨
    (¬ IsSupplied kind action isNested ∧ key.requestPath ∉ Dict.names files) := by
  cases kind <;> cases action <;> first | exact absurd rfl hc | cases isNested <;> decide +kernel

end ShippedTemplates

/-! ## What is there for them -/

theorem Template.lookup_ofList {context : Json} {cs : List Char} :
    lookup context (String.ofList cs) = follow context ((Text.splitOn '.' cs).map String.ofList) := by
  rw [lookup, String.toList_ofList]

theorem Template.exists_lookup {context value : Json} {cs : List Char}
    (h : follow context ((Text.splitOn '.' cs).map String.ofList) = some value) :
    ∃ value, lookup context (String.ofList cs) = some value :=
  ⟨value, lookup_ofList.trans h⟩

theorem ResolverContext.meets (c : ResolverContext) : ShippedTemplates.resolverScope.MetBy c.toJson where
  paths := by
    obtain ⟨apiName, resolver, binding, ⟨name, variant⟩, at'⟩ := c
    simp only [ShippedTemplates.resolverScope, List.forall_mem_cons]
    and_intros
    -- the last case is that of the source, whose members depend on what it is
    all_goals first
      | exact Template.exists_lookup rfl
      | exact List.forall_mem_nil _
      | cases variant <;> exact Template.exists_lookup rfl
  guarded := fun _ he => nomatch he

namespace SourceContext

theorem document_dynamo {name : String} {d : DynamoSource} {hash sort : Option KeyAttribute}
    (hhash : d.hashAttribute? = hash) (hsort : d.sortAttribute? = sort) (apiName : String) (at' : Instant) :
    document { name, variant := .dynamo d } apiName at' =
      .object [("apiName", apiName), ("dataSource", .object [("name", name), ("identifier", DataSource.identifier name),
          ("type", SourceKind.dynamo.name), ("hashKey", .ofOption KeyAttribute.toJson hash),
          ("sortKey", .ofOption KeyAttribute.toJson sort), ("disableBackup", d.disableBackup), ("primaryKey", .null),
          ("database", .null), ("functionName", .null), ("functionArn", .null)]),
        ("generatedAt", at'.text)] := by
  subst hhash hsort
  rfl

/-- Every source gives what its template names, a table if it has a hash key. -/
theorem meets (c : SourceContext) (hkey : c.kind = .dynamo → c.hashKey? ≠ none) (apiName : String) (at' : Instant) :
    (ShippedTemplates.sourceScope c.kind).MetBy (c.document apiName at') := by
  obtain ⟨name, variant⟩ := c
  cases variant with
  | sql | lambda =>
      refine ⟨?_, fun _ he => nomatch he⟩
      simp only [kind, SourceVariant.kind, ShippedTemplates.sourceScope, List.forall_mem_cons]
      and_intros
      all_goals first | exact Template.exists_lookup rfl | exact List.forall_mem_nil _
  | dynamo d =>
      obtain ⟨hash, hhash⟩ := Option.ne_none_iff_exists'.mp (hkey rfl)
      simp only [kind, SourceVariant.kind, ShippedTemplates.sourceScope]
      cases hsort : d.sortAttribute? with
      | none =>
          rw [document_dynamo hhash hsort]
          constructor <;> simp only [List.forall_mem_cons]
          · and_intros
            all_goals first | exact Template.exists_lookup rfl | exact List.forall_mem_nil _
          · refine ⟨fun hholds => ?_, List.forall_mem_nil _⟩
            rw [Template.holds, Template.lookup_ofList] at hholds
            cases hholds
      | some sort =>
          rw [document_dynamo hhash hsort]
          constructor <;> simp only [List.forall_mem_cons]
          · and_intros
            all_goals first | exact Template.exists_lookup rfl | exact List.forall_mem_nil _
          · refine ⟨fun _ => ?_, List.forall_mem_nil _⟩
            and_intros
            all_goals first | exact Template.exists_lookup rfl | exact List.forall_mem_nil _

end SourceContext

end ApiManifest
