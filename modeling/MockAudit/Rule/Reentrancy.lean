import MockAudit.Rule.Basic

namespace MockAudit.Rule

def delegateField? (site : Site) (receiver : NodeId) : Option FieldBinding :=
  match site.unit.kind? receiver with
  | some (.simpleName identifier (some (.var field))) =>
      if identifier = site.vocabulary.delegate then
        (site.symbols.field? field).filter (·.isField)
      else none
  | _ => none

def selfInvoked? (site : Site) : Option MethodBinding :=
  match site.kind? with
  | some (.call _ (some receiver) (some called) _) => do
      let field ← delegateField? site receiver
      let id ← site.enclosingMock?
      let mock ← site.symbols.method? id
      guard (field.declaringType = some mock.declaringType)
      guard (site.symbols.sameSignature id called)
      let target ← site.classification.target
      guard (field.declaredType = some target)
      guard !site.symbols.isReentrant site.vocabulary id
      return mock
  | _ => none

def selfInvocation (severity : Severity) : Rule where
  code := "ML007"
  name := "self-invocation-not-reentrant"
  description := "Flags mock methods calling themselves through `it` without reentrant=true"
  severity := severity
  triggers := [.call]
  findings site :=
    match selfInvoked? site with
    | some mock =>
        let marker := site.vocabulary.markerName
        let permission := site.vocabulary.reentrancy
        [{ anchor := site.node
           severity
           message := "Method calls itself. Set @" ++ marker ++ "(" ++ permission
             ++ "=true) on method '" ++ mock.name ++ "'"
           suggestion := some <| "Add " ++ permission ++ "=true to the @" ++ marker ++ " annotation" }]
    | none => []

end MockAudit.Rule
