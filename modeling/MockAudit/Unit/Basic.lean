import MockAudit.Text.LineIndex
import MockAudit.Unit.Symbols
import MockAudit.Unit.Tree

namespace MockAudit

structure Draft where
  path : String
  project : Option String := none
  source : Option String := none
  lineStarts : Option (List UInt64) := none
  length : Option UInt64 := none
  nodes : Array Node
  symbols : Symbols := {}
deriving DecidableEq

def LineIndex.Fits (index : LineIndex) : Option String → Prop
  | some source => index = .ofSource source
  | none => LineIndex.accepts index.starts index.length

def Draft.lineIndex (draft : Draft) : Except Defect { index : LineIndex // index.Fits draft.source } :=
  match draft.source with
  | some source => .ok ⟨.ofSource source, rfl⟩
  | none =>
      match draft.lineStarts, draft.length with
      | some starts, some length =>
          if accepted : LineIndex.accepts starts length then .ok ⟨⟨starts, length⟩, accepted⟩
          else .error (.badLineStarts length)
      | _, _ => .error .noLineIndex

structure CompilationUnit where
  path : String
  project : Option String
  source : Option String
  lines : LineIndex
  nodes : Array Node
  parents : ParentIndex
  symbols : Symbols
  fits : lines.Fits source
  linked : parentIndex nodes = .ok parents

/-- Validate a draft: its line index first, then its tree. -/
def Draft.validate (draft : Draft) : Except Defect CompilationUnit :=
  match draft.lineIndex with
  | .error defect => .error defect
  | .ok ⟨lines, fits⟩ =>
      match linked : parentIndex draft.nodes with
      | .error defect => .error defect
      | .ok parents =>
          .ok { path := draft.path, project := draft.project, source := draft.source, lines,
                nodes := draft.nodes, parents, symbols := draft.symbols, fits, linked }

namespace CompilationUnit

/-- The draft that describes a unit. A unit with source text needs no line starts; for any other the first
columns of its lines are given. -/
def toDraft (unit : CompilationUnit) : Draft where
  path := unit.path
  project := unit.project
  source := unit.source
  lineStarts := if unit.source.isSome then none else some unit.lines.firstColumns
  length := if unit.source.isSome then none else some unit.lines.length
  nodes := unit.nodes
  symbols := unit.symbols

def node? (unit : CompilationUnit) (id : NodeId) : Option Node := id.resolve unit.nodes

def kind? (unit : CompilationUnit) (id : NodeId) : Option NodeKind := (unit.node? id).map (·.kind)

def parent? (unit : CompilationUnit) (id : NodeId) : Option NodeId := (id.resolve unit.parents).join

def parentChain (unit : CompilationUnit) : Nat → Option NodeId → List NodeId
  | 0, _ => []
  | _ + 1, none => []
  | fuel + 1, some id => id :: unit.parentChain fuel (unit.parent? id)

/-- The proper ancestors of a node, innermost first. No chain in a tree is longer than the node table. -/
def ancestors (unit : CompilationUnit) (id : NodeId) : List NodeId :=
  unit.parentChain unit.nodes.size (unit.parent? id)

end CompilationUnit
end MockAudit
