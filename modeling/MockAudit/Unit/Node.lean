import MockAudit.Text.Span
import MockAudit.Unit.Ref

namespace MockAudit

inductive NameTarget where
  | var (id : FieldId)
  | type (id : TypeId)
  | method (id : MethodId)
deriving DecidableEq

inductive NodeKind where
  | compilationUnit
  | importDecl (name : String) (onDemand : Bool)
  | typeDecl (name : NodeId) (type : Option TypeId)
  | anonymousClass (type : Option TypeId)
  | creation (typeNode : NodeId) (type : Option TypeId)
  | methodDecl (name : NodeId) (method : Option MethodId)
  | fieldDecl
  | call (name : NodeId) (receiver : Option NodeId) (method : Option MethodId) (result : Option TypeId)
  | simpleName (identifier : String) (target : Option NameTarget)
  | typeRef (type : Option TypeId)
  | expressionStatement
  | block
  | other
deriving DecidableEq

inductive Trigger where
  | methodDecl | anonymousClass | call
deriving DecidableEq

namespace NodeKind

def trigger? : NodeKind → Option Trigger
  | .methodDecl .. => some .methodDecl
  | .anonymousClass .. => some .anonymousClass
  | .call .. => some .call
  | _ => none

def isTypeBody : NodeKind → Bool
  | .typeDecl .. | .anonymousClass .. => true
  | _ => false

def isTypeDecl : NodeKind → Bool
  | .typeDecl .. => true
  | _ => false

def bodyType? : NodeKind → Option TypeId
  | .typeDecl _ type | .anonymousClass type => type
  | _ => none

end NodeKind

structure Node where
  kind : NodeKind
  span : Span
  children : List NodeId
deriving DecidableEq

instance : Inhabited Node := ⟨⟨.other, ⟨0, 0⟩, []⟩⟩

end MockAudit
