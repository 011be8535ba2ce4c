import MockAudit.Unit.Assembly

namespace MockAudit

inductive SketchError where
  | notFound (needle : String) (offset : Nat)
  | invalid (defect : Defect)
deriving DecidableEq

structure Cursor where
  offset : Nat
  rest : List Char
deriving DecidableEq

namespace Cursor

def find? (needle : List Char) (offset : Nat) : List Char → Option Cursor
  | [] => if needle.isEmpty then some ⟨offset, []⟩ else none
  | c :: rest =>
      if needle.isPrefixOf (c :: rest) then some ⟨offset, c :: rest⟩
      else find? needle (offset + c.utf8Size) rest

def seek? (cursor : Cursor) (needle : String) : Option Cursor :=
  find? needle.toList cursor.offset cursor.rest

end Cursor

structure Sketch where
  assembly : Assembly
  cursor : Cursor
  rawBase : Option TypeId := none
  intType : Option TypeId := none

abbrev SketchM := StateT Sketch (Except SketchError)

namespace Sketch

def defaultPath : String := "src/test/java/app/MockTest.java"

def start (path source : String) : Sketch := ⟨.start path source, ⟨0, source.toList⟩, none, none⟩

def assemble {α : Type} (step : Assembly → α × Assembly) : SketchM α := do
  let sketch ← get
  let (answer, assembly) := step sketch.assembly
  set { sketch with assembly }
  return answer

def place (needle : String) : SketchM Span := do
  let sketch ← get
  match sketch.cursor.seek? needle with
  | none => throw (.notFound needle sketch.cursor.offset)
  | some cursor =>
      set { sketch with cursor }
      return ⟨UInt64.ofNat cursor.offset, UInt64.ofNat needle.utf8ByteSize⟩

def nodeAt (parent : NodeId) (kind : NodeKind) (span : Span) : SketchM NodeId :=
  assemble fun assembly => assembly.addNode parent kind span

def node (parent : NodeId) (kind : NodeKind) (needle : String) : SketchM NodeId := do
  let span ← place needle
  nodeAt parent kind span

def setKind (id : NodeId) (kind : NodeKind) : SketchM Unit :=
  assemble fun assembly => ((), assembly.updateNode id fun node => { node with kind })

def addType (type : TypeBinding) : SketchM TypeId := assemble (·.addType type)

def addMethod (method : MethodBinding) : SketchM MethodId := assemble (·.addMethod method)

def addField (field : FieldBinding) : SketchM FieldId := assemble (·.addField field)

def setSuperclass (id : TypeId) (superclass : Option TypeId) : SketchM Bool :=
  assemble fun assembly =>
    ((assembly.symbols.type? id).isSome, assembly.updateType id fun type => { type with superclass })

def int : SketchM TypeId := do
  match (← get).intType with
  | some id => return id
  | none =>
      let id ← addType { name := "int", qualifiedName := "int" }
      modify fun sketch => { sketch with intType := some id }
      return id

def rawBaseType : SketchM TypeId := do
  match (← get).rawBase with
  | some id => return id
  | none =>
      let id ← addType { name := "MockUp", qualifiedName := "mockit.MockUp" }
      modify fun sketch => { sketch with rawBase := some id }
      return id

def baseTypeOf (target : TypeId) : SketchM TypeId := do
  let raw ← rawBaseType
  addType { name := "MockUp", qualifiedName := "mockit.MockUp", typeArguments := [target], erasure := some raw }

def anonymousMock (target : TypeId) : SketchM (TypeId × TypeId) := do
  let base ← baseTypeOf target
  let anonymous ← addType { name := "", qualifiedName := "", superclass := some base }
  return (anonymous, base)

def accessor (base returns : TypeId) : SketchM MethodId :=
  addMethod { name := "getMockInstance", declaringType := base, returnType := some returns }

def mockMethod (declaring : TypeId) (name : String) (parameters : List TypeId) (reentrant : Bool) :
    SketchM MethodId :=
  let attributes : Dictionary AttributeValue :=
    if reentrant then .ofList [("reentrant", .bool true)] else .empty
  addMethod
    { name, declaringType := declaring, parameters, annotations := [⟨"mockit.Mock", attributes⟩] }

def importOf (name : String) : SketchM NodeId := node rootId (.importDecl name false) name

def simpleName (parent : NodeId) (identifier : String) (target : Option NameTarget) : SketchM NodeId :=
  node parent (.simpleName identifier target) identifier

def typeDecl (parent : NodeId) (name : String) (type : Option TypeId) : SketchM NodeId := do
  let declaration ← node parent (.typeDecl rootId type) name
  let nameNode ← simpleName declaration name (type.map .type)
  setKind declaration (.typeDecl nameNode type)
  return declaration

def methodDecl (parent : NodeId) (name : String) (method : Option MethodId) : SketchM NodeId := do
  let declaration ← node parent (.methodDecl rootId method) name
  let nameNode ← simpleName declaration name (method.map .method)
  setKind declaration (.methodDecl nameNode method)
  return declaration

def anonymousCreation (parent : NodeId) (typeText : String) (base anonymous : Option TypeId) :
    SketchM (NodeId × NodeId) := do
  let creation ← node parent (.creation rootId anonymous) "new "
  let typeNode ← node creation (.typeRef base) typeText
  setKind creation (.creation typeNode anonymous)
  let body ← node creation (.anonymousClass anonymous) "\x7b"
  return (creation, body)

def startCall (parent : NodeId) (needle : String) : SketchM NodeId :=
  node parent (.call rootId none none none) needle

/-- Add the name of a call and complete it. The call reaches to the next closing text, whose first character it
includes, or else to the end of its name. -/
def closeCall (closing : String) (call : NodeId) (receiver : Option NodeId) (name : String)
    (method : Option MethodId) (result : Option TypeId) : SketchM Unit := do
  let nameNode ← simpleName call name (method.map .method)
  let cursor := (← get).cursor
  let stop := match cursor.seek? closing with
    | some closed => closed.offset + 1
    | none => cursor.offset + name.utf8ByteSize
  setKind call (.call nameNode receiver method result)
  assemble fun assembly => ((), assembly.updateNode call fun node =>
    { node with span := ⟨node.span.start, UInt64.ofNat stop - node.span.start⟩ })

def finishCall (call : NodeId) (receiver : Option NodeId) (name : String) (method : Option MethodId)
    (result : Option TypeId) : SketchM Unit :=
  closeCall ")" call receiver name method result

def callOnName (parent : NodeId) (receiver : String) (receiverTarget : Option NameTarget) (name : String)
    (method : Option MethodId) (result : Option TypeId) : SketchM NodeId := do
  let call ← startCall parent receiver
  let receiverNode ← simpleName call receiver receiverTarget
  finishCall call (some receiverNode) name method result
  return call

def callNamed (parent : NodeId) (name : String) (method : Option MethodId) (result : Option TypeId) :
    SketchM NodeId := do
  let call ← startCall parent name
  closeCall ");" call none name method result
  return call

def build (sketch : Sketch) : Except SketchError CompilationUnit :=
  match sketch.assembly.build with
  | .ok unit => .ok unit
  | .error defect => .error (.invalid defect)

end Sketch
end MockAudit
