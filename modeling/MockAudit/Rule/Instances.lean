import MockAudit.Rule.Basic

namespace MockAudit.Rule

structure InterfaceMock where
  typeNode : NodeId
  accessorName : Option NodeId
  isDiscarded : Bool
deriving DecidableEq

def outerCall? (unit : CompilationUnit) (outer : Option NodeId) : Option (NodeId × Option MethodId) :=
  match outer.bind unit.kind? with
  | some (.call name _ method _) => some (name, method)
  | _ => none

/-- The site as an anonymous mock of an interface. A creation inside a call that cannot be resolved is none,
because that call may be the accessor. -/
def interfaceMock? (site : Site) : Option InterfaceMock := do
  let some (.anonymousClass _) := site.kind? | none
  guard site.classification.isDefinition
  let target ← site.symbols.type? (← site.classification.target)
  guard target.isInterface
  let creation ← site.unit.parent? site.node
  let some (.creation typeNode _) := site.unit.kind? creation | none
  let outer := site.unit.parent? creation
  match outerCall? site.unit outer with
  | none => return ⟨typeNode, none, false⟩
  | some (name, called) =>
      let method ← site.symbols.method? (← called)
      if method.name = site.vocabulary.accessor then
        let statement := (outer.bind site.unit.parent?).bind site.unit.kind?
        return ⟨typeNode, some name, statement == some .expressionStatement⟩
      else return ⟨typeNode, none, false⟩

def missingAccessor (severity : Severity) : Rule where
  code := "ML004"
  name := "missing-get-instance-call"
  description := "Flags interface mock-ups without a getMockInstance() call"
  severity := severity
  triggers := [.anonymousClass]
  findings site :=
    match interfaceMock? site with
    | some mock =>
        if mock.accessorName.isSome then []
        else
          let accessor := site.vocabulary.accessor
          [{ anchor := mock.typeNode
             severity
             message := "Missing call to " ++ accessor ++ "() on " ++ site.vocabulary.baseName
               ++ " of interface"
             suggestion := some <|
               "Use the object returned by `new ...() \x7b \x7d." ++ accessor ++ "()`" }]
    | none => []

def discardedInstance (severity : Severity) : Rule where
  code := "ML005"
  name := "unused-mock-instance"
  description := "Flags discarded getMockInstance() results"
  severity := severity
  triggers := [.anonymousClass]
  findings site :=
    match interfaceMock? site with
    | some ⟨_, some name, true⟩ =>
        [{ anchor := name
           severity
           message := "Returned mock instance is not being used."
           suggestion := some "Assign the instance and pass it to the code under test" }]
    | _ => []

def accessorOnClass (severity : Severity) : Rule where
  code := "ML006"
  name := "non-interface-get-instance"
  description := "Flags getMockInstance() used on mock-ups of classes"
  severity := severity
  triggers := [.call]
  findings site :=
    match site.kind? with
    | some (.call name _ (some called) (some result)) =>
        match site.symbols.method? called, site.symbols.type? result with
        | some method, some type =>
            let accessor := site.vocabulary.accessor
            if method.name == accessor
                && site.symbols.isMockBase site.vocabulary method.declaringType
                && !type.isInterface then
              [{ anchor := name
                 severity
                 message := accessor ++ "() used on mock of class " ++ type.name
                   ++ ". Use on interfaces"
                 suggestion := none }]
            else []
        | _, _ => []
    | _ => []

end MockAudit.Rule
