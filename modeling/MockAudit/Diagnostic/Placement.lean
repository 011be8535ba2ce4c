import MockAudit.Diagnostic.Basic

namespace MockAudit

inductive PlacementError where
  | unknownNode (node : NodeId)
  | outOfBounds (node : NodeId) (start stop length : UInt64)
deriving DecidableEq

def PlacementError.message : PlacementError → String
  | .unknownNode node => "anchor " ++ node.text ++ " is not in the unit"
  | .outOfBounds node start stop length =>
      "span " ++ start.toNat.repr ++ ".." ++ stop.toNat.repr ++ " of " ++ node.text
        ++ " exceeds file length " ++ length.toNat.repr

def CompilationUnit.locate (unit : CompilationUnit) (anchor : NodeId) : Except PlacementError Location :=
  match unit.node? anchor with
  | none => .error (.unknownNode anchor)
  | some node =>
      let outside := .error (.outOfBounds anchor node.span.start node.span.stop unit.lines.length)
      if Span.covers ⟨0, unit.lines.length⟩ node.span then
        match unit.lines.position? node.span.start with
        | some position =>
            .ok ⟨unit.path, position.line, position.column, node.span.start, node.span.stop⟩
        | none => outside
      else outside

def Rule.place (rule : Rule) (unit : CompilationUnit) (finding : Finding) :
    Except PlacementError Diagnostic :=
  (unit.locate finding.anchor).map fun location =>
    { code := rule.code
      rule := rule.name
      severity := finding.severity
      location
      message := finding.message
      suggestion := finding.suggestion
      kind := Diagnostic.mockSemantics }

end MockAudit
