import MockAudit.Text.Dictionary
import MockAudit.Unit.Ref

namespace MockAudit

structure TypeBinding where
  name : String
  qualifiedName : String
  isInterface : Bool := false
  isTypeVariable : Bool := false
  superclass : Option TypeId := none
  interfaces : List TypeId := []
  typeArguments : List TypeId := []
  erasure : Option TypeId := none
  methods : List MethodId := []
deriving DecidableEq

inductive Modifier where
  | isPublic | isProtected | isPrivate | isStatic | isFinal | isAbstract
deriving DecidableEq

inductive AttributeValue where
  | bool (value : Bool)
  | int (value : Int64)
  | text (value : String)
deriving DecidableEq

structure AnnotationUse where
  typeName : String
  attributes : Dictionary AttributeValue := .empty
deriving DecidableEq

def AnnotationUse.bool? (marking : AnnotationUse) (key : String) : Option Bool :=
  match marking.attributes.get? key with
  | some (.bool value) => some value
  | _ => none

structure MethodBinding where
  name : String
  declaringType : TypeId
  parameters : List TypeId := []
  returnType : Option TypeId := none
  modifiers : List Modifier := []
  isConstructor : Bool := false
  annotations : List AnnotationUse := []
deriving DecidableEq

namespace MethodBinding

def isPrivate (method : MethodBinding) : Bool := method.modifiers.contains .isPrivate

def markingOf? (method : MethodBinding) (typeName : String) : Option AnnotationUse :=
  method.annotations.find? fun marking => marking.typeName == typeName

end MethodBinding

structure FieldBinding where
  name : String
  declaringType : Option TypeId := none
  declaredType : Option TypeId := none
  isField : Bool := false
deriving DecidableEq

structure Symbols where
  types : Array TypeBinding := #[]
  methods : Array MethodBinding := #[]
  fields : Array FieldBinding := #[]
deriving DecidableEq

namespace Symbols

def type? (symbols : Symbols) (id : TypeId) : Option TypeBinding := id.resolve symbols.types

def method? (symbols : Symbols) (id : MethodId) : Option MethodBinding := id.resolve symbols.methods

def field? (symbols : Symbols) (id : FieldId) : Option FieldBinding := id.resolve symbols.fields

end Symbols
end MockAudit
