import MockAudit.Idiom.Vocabulary
import MockAudit.Unit.Symbols

/-!
# Type hierarchies

The symbol tables come from outside and may be cyclic or point nowhere; a link that leads nowhere ends the search along
it.
-/

namespace MockAudit.Symbols

def erasure (symbols : Symbols) (type : TypeId) : TypeId :=
  ((symbols.type? type).bind (·.erasure)).getD type

def isMockBase (symbols : Symbols) (v : Vocabulary) (type : TypeId) : Bool :=
  match symbols.type? (symbols.erasure type) with
  | some binding => binding.qualifiedName == v.baseType
  | none => false

def superclass? (symbols : Symbols) (type : TypeId) : Option TypeId :=
  (symbols.type? type).bind (·.superclass)

def baseAmong (symbols : Symbols) (v : Vocabulary) : Nat → Option TypeId → Option TypeId
  | 0, _ => none
  | _ + 1, none => none
  | fuel + 1, some type =>
      if symbols.isMockBase v type then some type
      else symbols.baseAmong v fuel (symbols.superclass? type)

/-- The nearest base type above a type. A chain of superclasses has no more different types than the table,
so a base type that is not met in that many steps is never met. -/
def mockBase? (symbols : Symbols) (v : Vocabulary) (type : TypeId) : Option TypeId :=
  symbols.baseAmong v symbols.types.size (symbols.superclass? type)

def isMockDefinition (symbols : Symbols) (v : Vocabulary) (type : TypeId) : Bool :=
  (symbols.mockBase? v type).isSome

def mockedTarget? (symbols : Symbols) (v : Vocabulary) (type : TypeId) : Option TypeId := do
  let base ← symbols.type? (← symbols.mockBase? v type)
  match base.typeArguments with
  | [target] =>
      let binding ← symbols.type? target
      if binding.isTypeVariable then none else some target
  | _ => none

def marker? (symbols : Symbols) (v : Vocabulary) (method : MethodId) : Option AnnotationUse :=
  (symbols.method? method).bind (·.markingOf? v.marker)

def isMockMethod (symbols : Symbols) (v : Vocabulary) (method : MethodId) : Bool :=
  (symbols.marker? v method).isSome

def isReentrant (symbols : Symbols) (v : Vocabulary) (method : MethodId) : Bool :=
  ((symbols.marker? v method).bind (·.bool? v.reentrancy)).getD false

def sameParameters (symbols : Symbols) (a b : MethodBinding) : Bool :=
  a.parameters.map symbols.erasure == b.parameters.map symbols.erasure

def sameSignature (symbols : Symbols) (a b : MethodId) : Bool :=
  match symbols.method? a, symbols.method? b with
  | some a, some b => a.name == b.name && symbols.sameParameters a b
  | _, _ => false

def listedMethods (symbols : Symbols) (type : TypeId) : List MethodId :=
  ((symbols.type? type).map (·.methods)).getD []

def declaredMethods (symbols : Symbols) (type : TypeId) : List MethodId :=
  symbols.listedMethods type ++
    if symbols.erasure type = type then [] else symbols.listedMethods (symbols.erasure type)

def listedSupertypes (symbols : Symbols) (type : TypeId) : List TypeId :=
  match symbols.type? type with
  | some binding => binding.superclass.toList ++ binding.interfaces
  | none => []

def supertypes (symbols : Symbols) (type : TypeId) : List TypeId :=
  if (symbols.type? type).isSome then
    symbols.listedSupertypes type ++ symbols.listedSupertypes (symbols.erasure type)
  else []

def unseen (seen : List TypeId) : List TypeId → List TypeId
  | [] => []
  | type :: rest => if type ∈ seen then unseen seen rest else type :: unseen (type :: seen) rest

/-- A layer of types followed by the layers above it, at most `fuel` of them. The layer above holds the direct
supertypes that have not been seen. -/
def layersFrom (symbols : Symbols) : Nat → List TypeId → List TypeId → List TypeId
  | 0, layer, _ => layer
  | fuel + 1, layer, seen =>
      match unseen seen (layer.flatMap symbols.supertypes) with
      | [] => layer
      | above => layer ++ symbols.layersFrom fuel above (seen ++ above)

/-- A type and all its supertypes, nearer ones first. Every layer but the last holds a resolved type, so there
are no more layers above the first than types in the table. -/
def hierarchy (symbols : Symbols) (type : TypeId) : List TypeId :=
  symbols.layersFrom symbols.types.size [type] [type]

def methodSatisfies (symbols : Symbols) (test : MethodBinding → Bool) (id : MethodId) : Bool :=
  match symbols.method? id with
  | some method => test method
  | none => false

def realConstructor? (symbols : Symbols) (target : TypeId) (mock : MethodBinding) : Option MethodId :=
  (symbols.type? target).bind fun type =>
    (symbols.declaredMethods target).find? <| symbols.methodSatisfies fun method =>
      method.isConstructor && method.name == type.name && symbols.sameParameters method mock

def realOrdinary? (symbols : Symbols) (target : TypeId) (mock : MethodBinding) : Option MethodId :=
  (symbols.hierarchy target).findSome? fun type =>
    (symbols.declaredMethods type).find? <| symbols.methodSatisfies fun method =>
      !method.isConstructor && method.name == mock.name && symbols.sameParameters method mock

def realMethod? (symbols : Symbols) (v : Vocabulary) (target : TypeId) (mock : MethodId) :
    Option MethodId :=
  (symbols.method? mock).bind fun mock =>
    if mock.name = v.constructorName then symbols.realConstructor? target mock
    else symbols.realOrdinary? target mock

end MockAudit.Symbols
