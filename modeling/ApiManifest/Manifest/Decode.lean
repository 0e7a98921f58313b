import ApiManifest.Manifest.Basic
import ApiManifest.Manifest.Place

/-!
Strict decoding of manifests: every key of a record is one of its members, given once, and the first
fault in the order of the document is reported.
-/

namespace ApiManifest

open Yaml (Node)

/-! ## Fields and resolvers -/

inductive FieldMember where
  | name
  | type
  | resolver
  | inputType
  deriving DecidableEq, Repr

instance : Members FieldMember where
  all := [.name, .type, .resolver, .inputType]
  spellings
    | .name => ["name"]
    | .type => ["type"]
    | .resolver => ["resolver"]
    | .inputType => ["inputType"]

inductive ResolverMember where
  | source
  | action
  | keyFields
  | template
  | type
  | sortDescending
  deriving DecidableEq, Repr

instance : Members ResolverMember where
  all := [.source, .action, .keyFields, .template, .type, .sortDescending]
  spellings
    | .source => ["source"]
    | .action => ["action"]
    | .keyFields => ["keyFields"]
    | .template => ["template"]
    | .type => ["type"]
    | .sortDescending => ["sortDescending"]

/-- An entry of `keyFields`: a shorthand still to be read, or a field. -/
inductive KeyFieldEntry where
  | shorthand (s : String)
  | field (f : Field)

def KeyFieldEntry.toField : KeyFieldEntry → Except DecodeError Field
  | .field f => .ok f
  | .shorthand s =>
    match Attribute.parse s with
    | .ok a => .ok (Field.typed a.name a.type)
    | .error e => .error (.ofAttributeError e)

/-- What is left to check when all members of a field are read: it has a name, and not both a type and
a resolver. With neither it has the default type. -/
def Field.checked (f : Field) : Except DecodeError Field :=
  if f.name = "" then .error .missingName
  else
    match f.resolver, f.type with
    | some _, some _ => .error (.typeAndResolver f.name)
    | some _, none => .ok f
    | none, type => .ok { f with type := some (type.getD default) }

def Field.blank : Field :=
  { name := "" }

def ResolverOf.blank : Resolver :=
  { action := "" }

mutual
def fieldMembers (r : Reading) :
    List (Node × Node) → List FieldMember → Field → Except DecodeError (List FieldMember × Field)
  | [], seen, f => .ok (seen, f)
  | (key, value) :: entries, seen, f => do
    let m ← Members.ofKey r key
    let seen ← Members.note m seen
    match m with
    | .name => do fieldMembers r entries seen { f with name := ← value.readString r }
    | .type => do fieldMembers r entries seen { f with type := ← value.readOption r FieldType.decode }
    | .resolver => do
      let resolver ← if ← value.isAbsent r then pure none else some <$> ResolverOf.decode r value
      fieldMembers r entries seen { f with resolver }
    | .inputType => do fieldMembers r entries seen { f with inputType := ← value.readOption r FieldType.decode }
termination_by structural entries => entries

def fieldItems : List Node → Except DecodeError Field
  | [] => .ok .blank
  | [name] => do return { name := ← name.readString .entry }
  | [name, type] => do
    let name ← name.readString .entry
    return { name, type := ← type.readOption .entry FieldType.decode }
  | [name, type, resolver] => do
    let name ← name.readString .entry
    let type ← type.readOption .entry FieldType.decode
    let resolver ← if ← resolver.isAbsent .entry then pure none else some <$> ResolverOf.decode .entry resolver
    return { name, type, resolver }
  | [name, type, resolver, inputType] => do
    let name ← name.readString .entry
    let type ← type.readOption .entry FieldType.decode
    let resolver ← if ← resolver.isAbsent .entry then pure none else some <$> ResolverOf.decode .entry resolver
    return { name, type, resolver, inputType := ← inputType.readOption .entry FieldType.decode }
  | _ => .error .badKeyField
termination_by structural items => items

def ResolverOf.decode (r : Reading) : Node → Except DecodeError Resolver
  | .mapping _ entries => do
    let (seen, resolver) ← resolverMembers r entries [] .blank
    Members.require ResolverMember.action seen
    return resolver
  | .sequence _ items => if r = .entry then resolverItems items else .error .invalidType
  | .scalar s => if Node.isVacant r s then .error (.missingField "action") else .error .invalidType
  | .unreadable => .error .malformed
termination_by structural n => n

def resolverMembers (r : Reading) :
    List (Node × Node) → List ResolverMember → Resolver → Except DecodeError (List ResolverMember × Resolver)
  | [], seen, resolver => .ok (seen, resolver)
  | (key, value) :: entries, seen, resolver => do
    let m ← Members.ofKey r key
    let seen ← Members.note m seen
    match m with
    | .source => do resolverMembers r entries seen { resolver with source := ← value.readString r }
    | .action => do resolverMembers r entries seen { resolver with action := ← value.readString r }
    | .keyFields => do resolverMembers r entries seen { resolver with keyFields := ← keyFields r value }
    | .template => do
      resolverMembers r entries seen { resolver with template := ← value.readOption r (Node.readString r) }
    | .type => do
      resolverMembers r entries seen { resolver with type := ← value.readOption r FieldType.decode }
    | .sortDescending => do
      resolverMembers r entries seen { resolver with sortDescending := ← value.readBool r }
termination_by structural entries => entries

def resolverItems : List Node → Except DecodeError Resolver
  | source :: action :: rest => do
    let source ← source.readString .entry
    let action ← action.readString .entry
    match rest with
    | [] => return { source, action }
    | fields :: rest => do
      let keyFields ← keyFields .entry fields
      match rest with
      | [] => return { source, action, keyFields }
      | template :: rest => do
        let template ← template.readOption .entry (Node.readString .entry)
        match rest with
        | [] => return { source, action, keyFields, template }
        | type :: rest => do
          let type ← type.readOption .entry FieldType.decode
          match rest with
          | [] => return { source, action, keyFields, template, type }
          | [descending] => do
            return { source, action, keyFields, template, type, sortDescending := ← descending.readBool .entry }
          | _ => .error .badKeyField
  | _ => .error .badKeyField
termination_by structural items => items

/-- Reads key fields. All entries are told apart before the shorthands are read. -/
def keyFields (r : Reading) : Node → Except DecodeError (List Field)
  | .sequence _ items => do (← keyFieldEntries items).mapM KeyFieldEntry.toField
  | .scalar s =>
    match Node.isAbsent r (.scalar s) with
    | .ok true => .ok []
    | .ok false => if Node.isVacant r s then .ok [] else .error .invalidType
    | .error e => .error e
  | .mapping _ _ => .error .invalidType
  | .unreadable => .error .malformed
termination_by structural n => n

def keyFieldEntries : List Node → Except DecodeError (List KeyFieldEntry)
  | [] => .ok []
  | n :: ns => do
    let entry ← keyFieldEntry n
    return entry :: (← keyFieldEntries ns)
termination_by structural ns => ns

/-- A string is a shorthand and anything else has to be a field. The whole entry is read first, and none
of it may be of a type of its own; whatever else is wrong inside of it, it is the entry that is
reported. -/
def keyFieldEntry (n : Node) : Except DecodeError KeyFieldEntry := do
  n.checkTags.mapError .ofFault
  match n with
  | .scalar s => if s.meaning = .string then .ok (.shorthand s.text) else .error .badKeyField
  | .unreadable => .error .malformed
  | .sequence _ items =>
    match fieldItems items with
    | .ok f => f.checked.map .field |>.mapError fun _ => .badKeyField
    | .error _ => .error .badKeyField
  | .mapping _ entries =>
    match fieldMembers .entry entries [] .blank with
    | .ok (_, f) => f.checked.map .field |>.mapError fun _ => .badKeyField
    | .error _ => .error .badKeyField
termination_by structural n
end

/-- Reads the members of a field. Inside an entry of `keyFields` it may be a list of its first members. -/
def Field.read (r : Reading) : Node → Except DecodeError Field
  | .mapping _ entries => do return (← fieldMembers r entries [] .blank).2
  | .sequence _ items => if r = .entry then fieldItems items else .error .invalidType
  | .scalar s => if Node.isVacant r s then .ok .blank else .error .invalidType
  | .unreadable => .error .malformed

def Field.decode (r : Reading) (n : Node) : Except DecodeError Field := do
  (← Field.read r n).checked

/-! ## Operations and data sources -/

inductive OperationMember where
  | name
  | type
  | resolver
  deriving DecidableEq, Repr

instance : Members OperationMember where
  all := [.name, .type, .resolver]
  spellings
    | .name => ["name"]
    | .type => ["type"]
    | .resolver => ["resolver"]

def Operation.setMember (r : Reading) :
    OperationMember → Node → Operation → Except DecodeError Operation
  | .name, n, o => do return { o with name := ← n.readString r }
  | .type, n, o => do return { o with type := ← FieldType.decode n }
  | .resolver, n, o => do return { o with resolver := ← n.readOption r (ResolverOf.decode r) }

def Operation.decode (r : Reading) (n : Node) : Except DecodeError Operation := do
  let (seen, o) ← Members.read r (setMember r) (← n.readEntries r) [] { name := "" }
  Members.require OperationMember.name seen
  return o

inductive DynamoMember where
  | hashKey
  | sortKey
  | disableBackup
  deriving DecidableEq, Repr

instance : Members DynamoMember where
  all := [.hashKey, .sortKey, .disableBackup]
  spellings
    | .hashKey => ["hash_key", "hashKey"]
    | .sortKey => ["sort_key", "sortKey"]
    | .disableBackup => ["disable_backup", "disableBackup"]

def DynamoSource.setMember (r : Reading) :
    DynamoMember → Node → DynamoSource → Except DecodeError DynamoSource
  | .hashKey, n, d => do return { d with hashKey := ← n.readString r }
  | .sortKey, n, d => do return { d with sortKey := ← n.readOption r (Node.readString r) }
  | .disableBackup, n, d => do return { d with disableBackup := ← n.readBool r }

def DynamoSource.decode (r : Reading) (n : Node) : Except DecodeError DynamoSource := do
  return (← Members.read r (setMember r) (← n.readEntries r) [] {}).2

inductive SqlMember where
  | primaryKey
  | database
  deriving DecidableEq, Repr

instance : Members SqlMember where
  all := [.primaryKey, .database]
  spellings
    | .primaryKey => ["primary_key", "primaryKey"]
    | .database => ["database"]

def SqlSource.setMember (r : Reading) : SqlMember → Node → SqlSource → Except DecodeError SqlSource
  | .primaryKey, n, s => do return { s with primaryKey := ← n.readString r }
  | .database, n, s => do return { s with database := ← n.readOption r (Node.readString r) }

def SqlSource.decode (r : Reading) (n : Node) : Except DecodeError SqlSource := do
  return (← Members.read r (setMember r) (← n.readEntries r) [] {}).2

inductive LambdaMember where
  | functionName
  | functionArn
  deriving DecidableEq, Repr

instance : Members LambdaMember where
  all := [.functionName, .functionArn]
  spellings
    | .functionName => ["function_name", "functionName"]
    | .functionArn => ["function_arn", "functionArn"]

def LambdaSource.setMember (r : Reading) :
    LambdaMember → Node → LambdaSource → Except DecodeError LambdaSource
  | .functionName, n, l => do return { l with functionName := ← n.readOption r (Node.readString r) }
  | .functionArn, n, l => do return { l with functionArn := ← n.readOption r (Node.readString r) }

def LambdaSource.decode (r : Reading) (n : Node) : Except DecodeError LambdaSource := do
  return (← Members.read r (setMember r) (← n.readEntries r) [] {}).2

inductive DataSourceMember where
  | dynamo
  | sql
  | lambda
  deriving DecidableEq, Repr

instance : Members DataSourceMember where
  all := [.dynamo, .sql, .lambda]
  spellings
    | .dynamo => ["dynamo"]
    | .sql => ["sql"]
    | .lambda => ["lambda"]

def DataSource.setMember (r : Reading) :
    DataSourceMember → Node → DataSource → Except DecodeError DataSource
  | .dynamo, n, s => do return { s with dynamo := ← n.readOption r (DynamoSource.decode r) }
  | .sql, n, s => do return { s with sql := ← n.readOption r (SqlSource.decode r) }
  | .lambda, n, s => do return { s with lambda := ← n.readOption r (LambdaSource.decode r) }

def DataSource.decode (r : Reading) (n : Node) : Except DecodeError DataSource := do
  return (← Members.read r (setMember r) (← n.readEntries r) [] {}).2

/-! ## Manifests -/

def decodeList (r : Reading) (read : Node → Except DecodeError α) (n : Node) : Except DecodeError (List α) := do
  (← n.readItems r).mapM read

/-- Reads a dictionary; a name met again keeps its place and takes the later value. -/
def decodeDict (r : Reading) (read : Node → Except DecodeError α) (n : Node) : Except DecodeError (Dict α) := do
  let entries ← (← n.readEntries r).mapM fun (key, value) => do return (← key.readString r, ← read value)
  return Dict.ofList entries

inductive ManifestMember where
  | version
  | apiNameSuffix
  | enums
  | objects
  | queries
  | mutations
  | sources
  deriving DecidableEq, Repr

instance : Members ManifestMember where
  all := [.version, .apiNameSuffix, .enums, .objects, .queries, .mutations, .sources]
  spellings
    | .version => ["version"]
    | .apiNameSuffix => ["apiNameSuffix"]
    | .enums => ["enums"]
    | .objects => ["objects"]
    | .queries => ["queries"]
    | .mutations => ["mutations"]
    | .sources => ["sources"]

def Manifest.setMember (r : Reading) : ManifestMember → Node → Manifest → Except DecodeError Manifest
  | .version, n, m => do return { m with version := ← n.readString r }
  | .apiNameSuffix, n, m => do return { m with apiNameSuffix := ← n.readString r }
  | .enums, n, m => do return { m with enums := ← decodeDict r (decodeList r (Node.readString r)) n }
  | .objects, n, m => do return { m with objects := ← decodeDict r (decodeList r (Field.decode r)) n }
  | .queries, n, m => do return { m with queries := ← decodeList r (Operation.decode r) n }
  | .mutations, n, m => do return { m with mutations := ← decodeList r (Operation.decode r) n }
  | .sources, n, m => do return { m with sources := ← decodeDict r (DataSource.decode r) n }

def Manifest.decode (r : Reading) (n : Node) : Except DecodeError Manifest := do
  let (seen, m) ← Members.read r (setMember r) (← n.readEntries r) [] { version := "" }
  Members.require ManifestMember.version seen
  return m

end ApiManifest
