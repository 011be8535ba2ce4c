import MockAudit.Json.Value
import MockAudit.Unit.Basic

namespace MockAudit

open Json (nat)

def Json.ofOption {α : Type} (encode : α → Json) : Option α → Json
  | some value => encode value
  | none => .null

def Json.ofList {α : Type} (encode : α → Json) (values : List α) : Json := .array (values.map encode)

def Json.ofDictionary {α : Type} (encode : α → Json) (entries : Dictionary α) : Json :=
  .object (entries.entries.map fun entry => (entry.1, encode entry.2))

def Json.ofWord (word : UInt64) : Json := nat word.toNat

def Ref.toJson {table : Table} (ref : Ref table) : Json := nat ref.toNat

def Span.toJson (span : Span) : Json :=
  .object [("start", .ofWord span.start), ("len", .ofWord span.len)]

def NameTarget.toJson : NameTarget → Json
  | .var id => .object [("to", .string "variable"), ("id", id.toJson)]
  | .type id => .object [("to", .string "type"), ("id", id.toJson)]
  | .method id => .object [("to", .string "method"), ("id", id.toJson)]

namespace NodeKind

def word : NodeKind → String
  | .compilationUnit => "compilation_unit"
  | .importDecl .. => "import"
  | .typeDecl .. => "type_declaration"
  | .anonymousClass .. => "anonymous_class"
  | .creation .. => "instance_creation"
  | .methodDecl .. => "method_declaration"
  | .fieldDecl => "field_declaration"
  | .call .. => "method_call"
  | .simpleName .. => "name"
  | .typeRef .. => "type_ref"
  | .expressionStatement => "expression_statement"
  | .block => "block"
  | .other => "other"

def payload : NodeKind → List (String × Json)
  | .importDecl name onDemand => [("name", .string name), ("on_demand", .bool onDemand)]
  | .typeDecl name type => [("name", name.toJson), ("binding", .ofOption Ref.toJson type)]
  | .anonymousClass type => [("binding", .ofOption Ref.toJson type)]
  | .creation typeNode type => [("type_node", typeNode.toJson), ("binding", .ofOption Ref.toJson type)]
  | .methodDecl name method => [("name", name.toJson), ("binding", .ofOption Ref.toJson method)]
  | .call name receiver method result =>
      [("name", name.toJson), ("receiver", .ofOption Ref.toJson receiver),
        ("binding", .ofOption Ref.toJson method), ("result_type", .ofOption Ref.toJson result)]
  | .simpleName identifier target =>
      [("identifier", .string identifier), ("binding", .ofOption NameTarget.toJson target)]
  | .typeRef type => [("binding", .ofOption Ref.toJson type)]
  | .compilationUnit | .fieldDecl | .expressionStatement | .block | .other => []

def members (kind : NodeKind) : List (String × Json) := ("kind", .string kind.word) :: kind.payload

def toJson (kind : NodeKind) : Json := .object kind.members

end NodeKind

def Node.toJson (node : Node) : Json :=
  .object (node.kind.members ++ [("span", node.span.toJson), ("children", .ofList Ref.toJson node.children)])

def TypeBinding.toJson (type : TypeBinding) : Json :=
  .object
    [("name", .string type.name), ("qualified_name", .string type.qualifiedName),
      ("is_interface", .bool type.isInterface), ("is_type_variable", .bool type.isTypeVariable),
      ("superclass", .ofOption Ref.toJson type.superclass),
      ("interfaces", .ofList Ref.toJson type.interfaces),
      ("type_arguments", .ofList Ref.toJson type.typeArguments),
      ("erasure", .ofOption Ref.toJson type.erasure), ("methods", .ofList Ref.toJson type.methods)]

def Modifier.word : Modifier → String
  | .isPublic => "public"
  | .isProtected => "protected"
  | .isPrivate => "private"
  | .isStatic => "static"
  | .isFinal => "final"
  | .isAbstract => "abstract"

def AttributeValue.toJson : AttributeValue → Json
  | .bool value => .bool value
  | .int value => .int value.toInt
  | .text value => .string value

def AnnotationUse.toJson (marking : AnnotationUse) : Json :=
  .object
    [("type_name", .string marking.typeName),
      ("attributes", .ofDictionary AttributeValue.toJson marking.attributes)]

def MethodBinding.toJson (method : MethodBinding) : Json :=
  .object
    [("name", .string method.name), ("declaring_type", method.declaringType.toJson),
      ("parameter_types", .ofList Ref.toJson method.parameters),
      ("return_type", .ofOption Ref.toJson method.returnType),
      ("modifiers", .ofList (fun modifier => .string modifier.word) method.modifiers),
      ("is_constructor", .bool method.isConstructor),
      ("annotations", .ofList AnnotationUse.toJson method.annotations)]

def FieldBinding.toJson (field : FieldBinding) : Json :=
  .object
    [("name", .string field.name), ("declaring_type", .ofOption Ref.toJson field.declaringType),
      ("declared_type", .ofOption Ref.toJson field.declaredType), ("is_field", .bool field.isField)]

def optionalMember {α : Type} (key : String) (encode : α → Json) : Option α → List (String × Json)
  | some value => [(key, encode value)]
  | none => []

def Draft.toJson (draft : Draft) : Json :=
  .object
    (("path", .string draft.path)
      :: optionalMember "project" .string draft.project
      ++ optionalMember "source" .string draft.source
      ++ optionalMember "line_starts" (.ofList .ofWord) draft.lineStarts
      ++ optionalMember "length" .ofWord draft.length
      ++ [("nodes", .ofList Node.toJson draft.nodes.toList),
          ("types", .ofList TypeBinding.toJson draft.symbols.types.toList),
          ("methods", .ofList MethodBinding.toJson draft.symbols.methods.toList),
          ("fields", .ofList FieldBinding.toJson draft.symbols.fields.toList)])

def CompilationUnit.toJson (unit : CompilationUnit) : Json := unit.toDraft.toJson

end MockAudit
