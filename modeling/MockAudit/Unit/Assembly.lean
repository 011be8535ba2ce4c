import MockAudit.Unit.Basic

namespace MockAudit

structure Assembly where
  path : String
  source : String
  nodes : Array Node
  symbols : Symbols := {}
deriving DecidableEq

def Ref.append {α : Type} {table : Table} (entries : Array α) (entry : α) : Ref table × Array α :=
  (.ofNat entries.size, entries.push entry)

def Ref.update {α : Type} {table : Table} (ref : Ref table) (entries : Array α) (f : α → α) : Array α :=
  entries.modify ref.toNat f

namespace Assembly

def start (path source : String) : Assembly where
  path
  source
  nodes := #[⟨.compilationUnit, ⟨0, UInt64.ofNat source.utf8ByteSize⟩, []⟩]

def addType (assembly : Assembly) (type : TypeBinding) : TypeId × Assembly :=
  let (id, types) := Ref.append assembly.symbols.types type
  (id, { assembly with symbols := { assembly.symbols with types } })

def addMethod (assembly : Assembly) (method : MethodBinding) : MethodId × Assembly :=
  let (id, methods) := Ref.append assembly.symbols.methods method
  let types := method.declaringType.update assembly.symbols.types fun type =>
    { type with methods := type.methods ++ [id] }
  (id, { assembly with symbols := { assembly.symbols with types, methods } })

def addField (assembly : Assembly) (field : FieldBinding) : FieldId × Assembly :=
  let (id, fields) := Ref.append assembly.symbols.fields field
  (id, { assembly with symbols := { assembly.symbols with fields } })

def addNode (assembly : Assembly) (parent : NodeId) (kind : NodeKind) (span : Span) : NodeId × Assembly :=
  let (id, nodes) := Ref.append assembly.nodes ⟨kind, span, []⟩
  let nodes := parent.update nodes fun node => { node with children := node.children ++ [id] }
  (id, { assembly with nodes })

def updateNode (assembly : Assembly) (id : NodeId) (f : Node → Node) : Assembly :=
  { assembly with nodes := id.update assembly.nodes f }

def updateType (assembly : Assembly) (id : TypeId) (f : TypeBinding → TypeBinding) : Assembly :=
  let types := id.update assembly.symbols.types f
  { assembly with symbols := { assembly.symbols with types } }

def node? (assembly : Assembly) (id : NodeId) : Option Node := id.resolve assembly.nodes

def toDraft (assembly : Assembly) : Draft where
  path := assembly.path
  source := some assembly.source
  nodes := assembly.nodes
  symbols := assembly.symbols

def build (assembly : Assembly) : Except Defect CompilationUnit := assembly.toDraft.validate

end Assembly
end MockAudit
