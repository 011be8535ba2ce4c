import MockAudit.Diagnostic.Placement

namespace MockAudit

def NodeKind.importsFramework (v : Vocabulary) : NodeKind → Bool
  | .importDecl name onDemand => v.recognises name onDemand
  | _ => false

def Rule.diagnosticsAt (rule : Rule) (site : Site) : List Diagnostic :=
  (rule.findings site).filterMap fun finding => (rule.place site.unit finding).toOption

def checkNode (unit : CompilationUnit) (v : Vocabulary) (rules : List Rule) (id : NodeId)
    (kind : NodeKind) : List Diagnostic :=
  match kind.trigger? with
  | none => []
  | some trigger =>
      (rules.filter fun rule => trigger ∈ rule.triggers).flatMap fun rule =>
        rule.diagnosticsAt ⟨unit, v, id⟩

/-- Visit the nodes on a stack and all below them; `imported` says whether an import of the framework has been
visited. The answer is none when the stack is not empty after `fuel` steps. -/
def walkStack (unit : CompilationUnit) (v : Vocabulary) (rules : List Rule) :
    Nat → List NodeId → Bool → Option (List Diagnostic)
  | _, [], _ => some []
  | 0, _ :: _, _ => none
  | fuel + 1, id :: stack, imported =>
      match unit.node? id with
      | none => walkStack unit v rules fuel stack imported
      | some node =>
          let imported := imported || node.kind.importsFramework v
          if node.kind.isTypeDecl && !imported then walkStack unit v rules fuel stack imported
          else
            (walkStack unit v rules fuel (node.children ++ stack) imported).map
              (checkNode unit v rules id node.kind ++ ·)

/-- The diagnostics of the rules on a unit, in the order of visits. A tree has no more nodes to visit than its
table holds, so that many steps empty the stack. -/
def walk (unit : CompilationUnit) (v : Vocabulary) (rules : List Rule) : List Diagnostic :=
  (walkStack unit v rules unit.nodes.size [rootId] false).getD []

end MockAudit
