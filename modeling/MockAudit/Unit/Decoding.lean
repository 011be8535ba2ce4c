import MockAudit.Json.Decoder
import MockAudit.Unit.Basic

namespace MockAudit

open Decoder Fields

def Ref.decode {table : Table} : Decoder (Ref table) := fun json => (word32 json).map Ref.mk

def Span.decode : Decoder Span :=
  record .json (Span.mk <$> required "start" word64 <*> required "len" word64)

namespace NameTarget

def words : List String := ["variable", "type", "method"]

def ofWord? (word : String) : Option (UInt32 → NameTarget) :=
  if word = "variable" then some fun index => .var ⟨index⟩
  else if word = "type" then some fun index => .type ⟨index⟩
  else if word = "method" then some fun index => .method ⟨index⟩
  else none

def fields (format : Format) : Fields NameTarget where
  names := ["to", "id"]
  decode members :=
    match Members.locate? "to" members 0, Members.locate? "id" members 0 with
    | some (wordAt, word), some (idAt, id) =>
        if wordAt < idAt then
          match alternative format ofWord? word with
          | .error fault => .error ⟨wordAt, fault⟩
          | .ok sort =>
              match word32 id with
              | .error fault => .error ⟨idAt, fault⟩
              | .ok index => .ok (sort index)
        else if !id.isReadable then .error ⟨idAt, .malformed⟩
        else
          match alternative format ofWord? word with
          | .error fault => .error ⟨wordAt, fault⟩
          | .ok sort =>
              match word32 id with
              | .error _ => .error ⟨wordAt, .mismatch⟩
              | .ok index => .ok (sort index)
    | some (wordAt, word), none =>
        match alternative format ofWord? word with
        | .error fault => .error ⟨wordAt, fault⟩
        | .ok _ => .error ⟨members.length, .mismatch⟩
    | none, some (idAt, id) =>
        if id.isReadable then .error ⟨members.length, .mismatch⟩ else .error ⟨idAt, .malformed⟩
    | none, none => .error ⟨members.length, .mismatch⟩

def sortItem (format : Format) : Decoder (UInt32 → NameTarget) := fun json =>
  match Decoder.name format words json with
  | .error fault => .error fault
  | .ok word =>
      match ofWord? word with
      | some sort => .ok sort
      | none => .error .mismatch

def itemFields (format : Format) : Fields NameTarget :=
  (fun sort index => sort index) <$> required "to" (sortItem format) <*> required "id" word32

def decode (format : Format) : Decoder NameTarget
  | .object members => (fields format).ofMembers members
  | .array items => (itemFields format).ofItems format items
  | other => .error (wrongKind other)

end NameTarget

namespace NodeKind

def words : List String :=
  ["compilation_unit", "import", "type_declaration", "anonymous_class", "instance_creation",
    "method_declaration", "field_declaration", "method_call", "name", "type_ref", "expression_statement",
    "block", "other"]

def fieldsOf? (word : String) : Option (Fields NodeKind) :=
  if word = "import" then
    some (.importDecl <$> required "name" string <*> withDefault "on_demand" false bool)
  else if word = "type_declaration" then
    some (.typeDecl <$> required "name" Ref.decode <*> optional "binding" Ref.decode)
  else if word = "anonymous_class" then some (.anonymousClass <$> optional "binding" Ref.decode)
  else if word = "instance_creation" then
    some (.creation <$> required "type_node" Ref.decode <*> optional "binding" Ref.decode)
  else if word = "method_declaration" then
    some (.methodDecl <$> required "name" Ref.decode <*> optional "binding" Ref.decode)
  else if word = "method_call" then
    some (.call <$> required "name" Ref.decode <*> optional "receiver" Ref.decode
      <*> optional "binding" Ref.decode <*> optional "result_type" Ref.decode)
  else if word = "name" then
    some (.simpleName <$> required "identifier" string
      <*> optional "binding" (NameTarget.decode .bufferedJson))
  else if word = "type_ref" then some (.typeRef <$> optional "binding" Ref.decode)
  else
    (bare? word).map fun kind => ⟨[], fun _ => .ok kind⟩
where
  bare? (word : String) : Option NodeKind :=
    if word = "compilation_unit" then some .compilationUnit
    else if word = "field_declaration" then some .fieldDecl
    else if word = "expression_statement" then some .expressionStatement
    else if word = "block" then some .block
    else if word = "other" then some .other
    else none

def ofReadable? (members : Members) : Option NodeKind :=
  match members.filter (·.1 == "kind"), members.filter (·.1 != "kind") with
  | [(_, json)], rest => do
      let word ← (Decoder.name .bufferedJson words json).toOption
      let fields ← fieldsOf? word
      (fields.ofMembers rest).toOption
  | _, _ => none

def memberFault? (seenWord : Bool) : Members → Option Fault
  | [] => none
  | (key, json) :: rest =>
      if key = "kind" then
        if seenWord then some .mismatch
        else
          match json with
          | .string word => if (fieldsOf? word).isSome then memberFault? true rest else some .mismatch
          | wrong => some (wrongKind wrong)
      else if json.isReadable then memberFault? seenWord rest
      else some .malformed

def decode : Decoder NodeKind
  | .object members =>
      match memberFault? false members with
      | some fault => .error fault
      | none =>
          match ofReadable? members with
          | some kind => .ok kind
          | none => .error .mismatch
  | .array (.string word :: items) =>
      match fieldsOf? word with
      | none => .error .mismatch
      | some fields =>
          if !Json.areReadable items then .error .malformed
          else
            match fields.ofItems .json items with
            | .ok kind => .ok kind
            | .error _ => .error .mismatch
  | .array (first :: _) => .error (wrongKind first)
  | wrong => .error (wrongKind wrong)

end NodeKind

namespace Node

def ownNames : List String := ["span", "children"]

def unreadableMember? (position : Nat) : Members → Option Located
  | [] => none
  | (key, json) :: rest =>
      if key ∈ ownNames ∨ json.isReadable then unreadableMember? (position + 1) rest
      else some ⟨position, .malformed⟩

def kindField : Fields NodeKind where
  names := []
  decode members :=
    match unreadableMember? 0 members with
    | some found => .error found
    | none =>
        match NodeKind.ofReadable? (members.filter fun entry => entry.1 ∉ ownNames) with
        | some kind => .ok kind
        | none => .error ⟨members.length, .mismatch⟩

def fields : Fields Node :=
  Node.mk <$> kindField <*> required "span" Span.decode
    <*> withDefault "children" [] (list Ref.decode)

def decode : Decoder Node
  | .object members => fields.ofMembers members
  | other => .error (wrongKind other)

end Node

def TypeBinding.decode : Decoder TypeBinding :=
  record .json (TypeBinding.mk <$> required "name" string <*> required "qualified_name" string
    <*> withDefault "is_interface" false bool <*> withDefault "is_type_variable" false bool
    <*> optional "superclass" Ref.decode <*> withDefault "interfaces" [] (list Ref.decode)
    <*> withDefault "type_arguments" [] (list Ref.decode) <*> optional "erasure" Ref.decode
    <*> withDefault "methods" [] (list Ref.decode))

def Modifier.ofWord? (word : String) : Option Modifier :=
  if word = "public" then some .isPublic
  else if word = "protected" then some .isProtected
  else if word = "private" then some .isPrivate
  else if word = "static" then some .isStatic
  else if word = "final" then some .isFinal
  else if word = "abstract" then some .isAbstract
  else none

def AttributeValue.decode : Decoder AttributeValue :=
  buffered fun json =>
    match json with
    | .bool value => .ok (.bool value)
    | .string value => .ok (.text value)
    | other => (intWithin (-0x8000000000000000) 0x7FFFFFFFFFFFFFFF other).map fun value => .int (Int64.ofInt value)

def AnnotationUse.decode : Decoder AnnotationUse :=
  record .json (AnnotationUse.mk <$> required "type_name" string
    <*> withDefault "attributes" .empty (dictionary AttributeValue.decode))

def MethodBinding.decode : Decoder MethodBinding :=
  record .json (MethodBinding.mk <$> required "name" string <*> required "declaring_type" Ref.decode
    <*> withDefault "parameter_types" [] (list Ref.decode) <*> optional "return_type" Ref.decode
    <*> withDefault "modifiers" [] (list (alternative .json Modifier.ofWord?))
    <*> withDefault "is_constructor" false bool
    <*> withDefault "annotations" [] (list AnnotationUse.decode))

def FieldBinding.decode : Decoder FieldBinding :=
  record .json (FieldBinding.mk <$> required "name" string <*> optional "declaring_type" Ref.decode
    <*> optional "declared_type" Ref.decode <*> withDefault "is_field" false bool)

def Decoder.table {α : Type} (decode : Decoder α) : Decoder (Array α) := fun json =>
  (list decode json).map List.toArray

def Symbols.fieldList : Fields Symbols :=
  Symbols.mk <$> withDefault "types" #[] (table TypeBinding.decode)
    <*> withDefault "methods" #[] (table MethodBinding.decode)
    <*> withDefault "fields" #[] (table FieldBinding.decode)

def Draft.decode : Decoder Draft :=
  record .json (Draft.mk <$> required "path" string <*> optional "project" string
    <*> optional "source" string <*> optional "line_starts" (list word64) <*> optional "length" word64
    <*> required "nodes" (table Node.decode) <*> Symbols.fieldList)

structure Header where
  path : String
  project : Option String
deriving DecidableEq

def Header.decode : Decoder Header :=
  record .json (Header.mk <$> required "path" string <*> optional "project" string)

inductive DocumentError where
  | undecodable (fault : Fault)
  | invalid (defect : Defect)
deriving DecidableEq

/-- The unit that a document describes. The unit is validated before the end of the document is looked at. -/
def CompilationUnit.ofDocument (document : Json.Document) : Except DocumentError CompilationUnit :=
  match Draft.decode document.root with
  | .error fault => .error (.undecodable fault)
  | .ok draft =>
      match draft.validate with
      | .error defect => .error (.invalid defect)
      | .ok unit => if document.complete then .ok unit else .error (.undecodable .malformed)

def CompilationUnit.ofText (text : String) : Except DocumentError CompilationUnit :=
  CompilationUnit.ofDocument (Json.read text)

def Header.ofText (text : String) : Except Fault Header := Header.decode.text text

end MockAudit
