import MockAudit.Idiom.Hierarchy
import MockAudit.Unit.Basic

namespace MockAudit

structure Site where
  unit : CompilationUnit
  vocabulary : Vocabulary
  node : NodeId

structure Classification where
  target : Option TypeId := none
  isMockMethod : Bool := false
  isReentrant : Bool := false
  isDefinition : Bool := false
deriving DecidableEq

namespace Site

def symbols (site : Site) : Symbols := site.unit.symbols

def kind? (site : Site) : Option NodeKind := site.unit.kind? site.node

def enclosingType? (site : Site) : Option TypeId :=
  ((site.unit.ancestors site.node).findSome? fun ancestor =>
    match site.unit.kind? ancestor with
    | some kind => if kind.isTypeBody then some kind.bodyType? else none
    | none => none).join

/-- The method declared innermost around the node, if it is a mock method. A plain or unresolved method hides
any mock method further out. -/
def enclosingMock? (site : Site) : Option MethodId :=
  ((site.unit.ancestors site.node).findSome? fun ancestor =>
    match site.unit.kind? ancestor with
    | some (.methodDecl _ method) => some method
    | _ => none).join.filter (site.symbols.isMockMethod site.vocabulary)

def createdType? (site : Site) : Option TypeId :=
  (site.unit.node? site.node).bind fun node =>
    node.children.findSome? fun child =>
      match site.unit.kind? child with
      | some (.anonymousClass type) => type
      | _ => none

/-- The type whose mock definition matters at the node: its own for a type body or an instance creation, the
enclosing one for any other node. -/
def relevantType? (site : Site) : Option TypeId :=
  match site.kind? with
  | none => none
  | some (.typeDecl _ type) | some (.anonymousClass type) => type
  | some (.creation ..) => site.createdType?
  | some _ => site.enclosingType?

def target? (site : Site) : Option TypeId :=
  site.relevantType?.bind (site.symbols.mockedTarget? site.vocabulary)

def defines (site : Site) (type : Option TypeId) : Bool :=
  type.any (site.symbols.isMockDefinition site.vocabulary)

def classification (site : Site) : Classification :=
  match site.kind? with
  | some (.methodDecl _ method) =>
      { target := site.target?
        isMockMethod := method.any (site.symbols.isMockMethod site.vocabulary)
        isReentrant := method.any (site.symbols.isReentrant site.vocabulary)
        isDefinition := site.defines site.enclosingType? }
  | some (.anonymousClass type) | some (.typeDecl _ type) =>
      { target := site.target?, isDefinition := site.defines type }
  | some (.call ..) => { target := site.target?, isDefinition := site.defines site.enclosingType? }
  | _ => {}

def typeName (site : Site) (type : TypeId) : String :=
  ((site.symbols.type? type).map (·.name)).getD ""

def methodName? (site : Site) : Option String :=
  match site.kind? with
  | some (.methodDecl _ method) | some (.call _ _ method _) =>
      (method.bind site.symbols.method?).map (·.name)
  | _ => none

end Site
end MockAudit
