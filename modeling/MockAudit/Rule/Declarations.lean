import MockAudit.Rule.Basic

namespace MockAudit.Rule

structure MockedDeclaration where
  name : NodeId
  method : MethodId
  target : TypeId
  real : Option MethodId
deriving DecidableEq

def mockedDeclaration? (site : Site) : Option MockedDeclaration :=
  match site.kind? with
  | some (.methodDecl name (some method)) =>
      site.classification.target.map fun target =>
        ⟨name, method, target, site.symbols.realMethod? site.vocabulary target method⟩
  | _ => none

def missingMarker (severity : Severity) : Rule where
  code := "ML001"
  name := "missing-mock-annotation"
  description := "Flags mocked methods without the @Mock annotation"
  severity := severity
  triggers := [.methodDecl]
  findings site :=
    match mockedDeclaration? site with
    | some decl =>
        if site.classification.isMockMethod || decl.real.isNone then []
        else
          let marker := site.vocabulary.markerName
          [{ anchor := decl.name
             severity
             message := "Mocked method missing @" ++ marker ++ " annotation"
             suggestion := some <|
               "Annotate '" ++ site.methodName?.getD "" ++ "' with @" ++ marker }]
    | none => []

def danglingMarker (severity : Severity) : Rule where
  code := "ML002"
  name := "dangling-mock-annotation"
  description := "Flags @Mock methods with no matching real method"
  severity := severity
  triggers := [.methodDecl]
  findings site :=
    match mockedDeclaration? site with
    | some decl =>
        if !site.classification.isMockMethod || decl.real.isSome then []
        else
          let target := site.typeName decl.target
          [{ anchor := decl.name
             severity
             message := "Mocked real method not found in type " ++ target
             suggestion := some <|
               "Check the name and parameter types against " ++ target ++ ", or remove the method" }]
    | none => []

def privateMock (severity : Severity) : Rule where
  code := "ML003"
  name := "private-mock-method"
  description := "Flags @Mock methods declared private"
  severity := severity
  triggers := [.methodDecl]
  findings site :=
    match mockedDeclaration? site with
    | some decl =>
        let isPrivate := (site.symbols.method? decl.method).any (·.isPrivate)
        if !site.classification.isMockMethod || decl.real.isNone || !isPrivate then []
        else
          [{ anchor := decl.name
             severity
             message := "Mocked method should not be private"
             suggestion := some "Remove the private modifier" }]
    | none => []

end MockAudit.Rule
