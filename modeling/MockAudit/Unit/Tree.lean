import MockAudit.Unit.Node

namespace MockAudit

inductive Defect where
  | noNodes
  | noLineIndex
  | badLineStarts (length : UInt64)
  | missingChild (parent child : NodeId)
  | sharedChild (node : NodeId)
  | unreachable (node : NodeId)
deriving DecidableEq

def Defect.message : Defect → String
  | .noNodes => "unit has no nodes"
  | .noLineIndex => "unit has neither source text nor a line index"
  | .badLineStarts length =>
      "line starts are not increasing from 0 within length " ++ length.toNat.repr
  | .missingChild parent child => parent.text ++ " lists missing child " ++ child.text
  | .sharedChild node => node.text ++ " has more than one parent"
  | .unreachable node => node.text ++ " is not reachable from the root"

abbrev ParentIndex := Array (Option NodeId)

def rootId : NodeId := ⟨0⟩

def enterChildren (parent : NodeId) : List NodeId → ParentIndex → Except Defect ParentIndex
  | [], parents => .ok parents
  | child :: rest, parents =>
      match child.resolve parents with
      | none => .error (.missingChild parent child)
      | some earlier =>
          if child = rootId ∨ earlier.isSome then .error (.sharedChild child)
          else enterChildren parent rest (parents.setIfInBounds child.toNat (some parent))

def enterNodes (index : Nat) : List Node → ParentIndex → Except Defect ParentIndex
  | [], parents => .ok parents
  | node :: rest, parents =>
      match enterChildren (.ofNat index) node.children parents with
      | .error defect => .error defect
      | .ok entered => enterNodes (index + 1) rest entered

def markReachable (nodes : Array Node) : Nat → List NodeId → Array Bool → Array Bool
  | 0, _, seen => seen
  | _ + 1, [], seen => seen
  | fuel + 1, id :: stack, seen =>
      let children := ((id.resolve nodes).map (·.children)).getD []
      markReachable nodes fuel (children ++ stack) (seen.setIfInBounds id.toNat true)

/-- The parent of each node, provided that the child lists form a tree rooted at node 0. A tree has no more
nodes than the table, so that many steps mark all of it. -/
def parentIndex (nodes : Array Node) : Except Defect ParentIndex :=
  if nodes.isEmpty then .error .noNodes
  else
    match enterNodes 0 nodes.toList (Array.replicate nodes.size none) with
    | .error defect => .error defect
    | .ok parents =>
        let seen := markReachable nodes nodes.size [rootId] (Array.replicate nodes.size false)
        match seen.findIdx? (!·) with
        | some index => .error (.unreachable (.ofNat index))
        | none => .ok parents

end MockAudit
