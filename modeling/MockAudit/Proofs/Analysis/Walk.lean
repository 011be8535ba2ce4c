import MockAudit.Analysis.Walk
import MockAudit.Proofs.Unit.Preorder

/-!
# The walk visits in pre-order

The walk keeps a stack and a flag. It is compared with a description that has neither: the nodes in pre-order, less
those in a type declaration that does not come after the opening import.
-/

namespace MockAudit

open Relation (TransGen ReflTransGen)

namespace CompilationUnit

def declaresType (unit : CompilationUnit) (id : NodeId) : Bool := (unit.kind? id).any (·.isTypeDecl)

def importsFramework (unit : CompilationUnit) (v : Vocabulary) (id : NodeId) : Bool :=
  (unit.kind? id).any (·.importsFramework v)

def openingImport? (unit : CompilationUnit) (v : Vocabulary) : Option NodeId :=
  unit.preorder.find? fun id => unit.importsFramework v id && !(unit.ancestors id).any unit.declaresType

def isOpened (unit : CompilationUnit) (v : Vocabulary) (id : NodeId) : Bool :=
  (unit.openingImport? v).any fun opening => decide (unit.Precedes opening id)

/-- Does every type declaration among a node and its ancestors come after the opening import? -/
def isVisited (unit : CompilationUnit) (v : Vocabulary) (id : NodeId) : Bool :=
  (id :: unit.ancestors id).all fun scope => !unit.declaresType scope || unit.isOpened v scope

def isWatchedBy (unit : CompilationUnit) (id : NodeId) (rule : Rule) : Bool :=
  ((unit.kind? id).bind (·.trigger?)).any (· ∈ rule.triggers)

def reportAt (unit : CompilationUnit) (v : Vocabulary) (rules : List Rule) (id : NodeId) : List Diagnostic :=
  (rules.filter (unit.isWatchedBy id)).flatMap fun rule =>
    (rule.findings ⟨unit, v, id⟩).filterMap fun finding => (rule.place unit finding).toOption

variable {unit : CompilationUnit} {v : Vocabulary}

theorem isVisited_iff {id : NodeId} : unit.isVisited v id ↔
    ∀ scope, Reaches unit.nodes scope id → unit.declaresType scope → unit.isOpened v scope := by
  simp only [isVisited, List.all_eq_true, List.mem_cons, mem_ancestors, Bool.or_eq_true, Bool.not_eq_true',
    ← Bool.not_eq_true, ← imp_iff_not_or]
  refine forall_congr' fun scope => ?_
  rw [Reaches, Relation.reflTransGen_iff_eq_or_transGen, eq_comm]

theorem declaresType_eq {id : NodeId} {node : Node} (found : unit.node? id = some node) :
    unit.declaresType id = node.kind.isTypeDecl := by
  simp [declaresType, kind?, found]

theorem importsFramework_eq {id : NodeId} {node : Node} (found : unit.node? id = some node) :
    unit.importsFramework v id = node.kind.importsFramework v := by
  simp [importsFramework, kind?, found]

theorem declaresType_of_importsFramework {id : NodeId} (imports : unit.importsFramework v id) :
    unit.declaresType id = false := by
  obtain ⟨kind, found, imports⟩ := (Option.any_eq_true _ _).mp imports
  cases kind <;> simp_all [declaresType, NodeKind.importsFramework, NodeKind.isTypeDecl]

theorem checkNode_eq_reportAt (rules : List Rule) {id : NodeId} {node : Node}
    (found : unit.node? id = some node) : checkNode unit v rules id node.kind = unit.reportAt v rules id := by
  have watched : unit.isWatchedBy id = fun rule => node.kind.trigger?.any (· ∈ rule.triggers) := by
    funext rule
    simp [isWatchedBy, kind?, found]
  simp only [checkNode, reportAt, Rule.diagnosticsAt, watched]
  cases node.kind.trigger? <;> simp

end CompilationUnit

open CompilationUnit

/-- What the loop knows when `stack` is left: the nodes `done` have been visited or passed over. -/
structure Walking (unit : CompilationUnit) (v : Vocabulary) (done stack : List NodeId) (imported : Bool) :
    Prop where
  order : unit.preorder = done ++ stack.flatMap unit.preorderFrom
  flag : imported = true ↔ ∃ opening, unit.openingImport? v = some opening ∧ opening ∈ done
  entered : ∀ id ∈ stack, ∀ scope, TransGen (Lists unit.nodes) scope id →
    unit.declaresType scope → unit.isOpened v scope

variable {unit : CompilationUnit} {v : Vocabulary} {done stack : List NodeId} {imported : Bool} {id : NodeId}

theorem walking_start (unit : CompilationUnit) (v : Vocabulary) : Walking unit v [] [rootId] false where
  order := by simp [preorder]
  flag := by simp
  entered := by
    intro id member scope above
    obtain rfl : id = rootId := by simpa using member
    obtain ⟨parent, -, lists⟩ := TransGen.tail'_iff.mp above
    exact absurd lists unit.isLinked.rootFree

namespace Walking

theorem cut (walking : Walking unit v done (id :: stack) imported) :
    unit.preorder = done ++ id :: (unit.children id ++ stack).flatMap unit.preorderFrom := by
  rw [walking.order, flatMap_preorderFrom_cons]

theorem isOpened_iff (walking : Walking unit v done (id :: stack) imported) :
    unit.isOpened v id ↔ imported = true := by
  rw [walking.flag, isOpened, Option.any_eq_true]
  refine exists_congr fun opening => and_congr_right fun _ => ?_
  rw [decide_eq_true_iff, unit.precedes_iff walking.cut]

theorem isVisited_top_iff (walking : Walking unit v done (id :: stack) imported) :
    unit.isVisited v id ↔ (unit.declaresType id → imported = true) := by
  rw [isVisited_iff, ← walking.isOpened_iff]
  constructor
  · intro visited
    exact visited id .refl
  · intro own scope above declares
    rcases Relation.reflTransGen_iff_eq_or_transGen.mp above with rfl | proper
    · exact own declares
    · exact walking.entered id List.mem_cons_self scope proper declares

theorem unvisited_below (walking : Walking unit v done (id :: stack) false) (declares : unit.declaresType id)
    {other : NodeId} (below : other ∈ unit.preorderFrom id) : unit.isVisited v other = false := by
  rw [← Bool.not_eq_true, isVisited_iff]
  intro visited
  have opened := visited id (unit.mem_preorderFrom.mp below) declares
  simpa using walking.isOpened_iff.mp opened

theorem passOver (walking : Walking unit v done (id :: stack) false) (declares : unit.declaresType id) :
    Walking unit v (done ++ unit.preorderFrom id) stack false where
  order := by rw [walking.order, List.flatMap_cons, List.append_assoc]
  flag := by
    -- The opening import is in no type declaration, so it is not among what is passed over.
    simp only [Bool.false_eq_true, false_iff]
    rintro ⟨opening, isOpening, member⟩
    rcases List.mem_append.mp member with before | below
    · exact absurd (walking.flag.mpr ⟨opening, isOpening, before⟩) (by simp)
    · have conditions := List.find?_some isOpening
      simp only [Bool.and_eq_true, Bool.not_eq_true', List.any_eq_false] at conditions
      rcases Relation.reflTransGen_iff_eq_or_transGen.mp (unit.mem_preorderFrom.mp below) with rfl | above
      · simp [declaresType_of_importsFramework conditions.1] at declares
      · exact conditions.2 id (unit.mem_ancestors.mpr above) declares
  entered other member := walking.entered other (List.mem_cons_of_mem _ member)

theorem mem_done_of_above (walking : Walking unit v done (id :: stack) imported) {scope : NodeId}
    (above : TransGen (Lists unit.nodes) scope id) : scope ∈ done := by
  have distinct : (done ++ id :: (unit.children id ++ stack).flatMap unit.preorderFrom).Nodup :=
    walking.cut ▸ unit.preorder_nodup
  have once := (List.nodup_cons.mp (List.nodup_append.mp distinct).2.1).1
  obtain ⟨child, ⟨node, found, -⟩, -⟩ := TransGen.head'_iff.mp above
  have inOrder : scope ∈ unit.preorder := unit.mem_preorder.mpr (by simp [node?, found])
  rw [walking.cut, List.mem_append, List.mem_cons] at inOrder
  rcases inOrder with before | rfl | after
  · exact before
  · exact absurd above (unit.not_above_self scope)
  · -- Otherwise what heads the scope heads the node as well, which then comes twice.
    obtain ⟨head, member, below⟩ := List.mem_flatMap.mp after
    have again := (unit.mem_preorderFrom.mp below).trans above.to_reflTransGen
    exact absurd (List.mem_flatMap.mpr ⟨head, member, unit.mem_preorderFrom.mpr again⟩) once

theorem imported_of_isOpened_above (walking : Walking unit v done (id :: stack) imported) {scope : NodeId}
    (above : TransGen (Lists unit.nodes) scope id) (opened : unit.isOpened v scope) : imported = true := by
  obtain ⟨before, between, split⟩ := List.append_of_mem (walking.mem_done_of_above above)
  have cutAtScope := walking.cut
  rw [split, List.append_assoc, List.cons_append] at cutAtScope
  obtain ⟨opening, isOpening, precedes⟩ := (Option.any_eq_true _ _).mp opened
  rw [decide_eq_true_iff, unit.precedes_iff cutAtScope] at precedes
  exact walking.flag.mpr ⟨opening, isOpening, by simp [split, precedes]⟩

theorem openingImport?_eq_top (walking : Walking unit v done (id :: stack) false)
    (imports : unit.importsFramework v id) : unit.openingImport? v = some id := by
  let opens (other : NodeId) := unit.importsFramework v other && !(unit.ancestors other).any unit.declaresType
  have whole : unit.openingImport? v = unit.preorder.find? opens := rfl
  have outside : opens id = true := by
    simp only [opens, imports, Bool.true_and, Bool.not_eq_true', List.any_eq_false]
    intro scope isAncestor declares
    have above := unit.mem_ancestors.mp isAncestor
    have opened := walking.entered id List.mem_cons_self scope above declares
    simpa using walking.imported_of_isOpened_above above opened
  rw [walking.cut, List.find?_append, List.find?_cons_of_pos outside] at whole
  cases earlier : done.find? opens with
  | none => simpa [earlier] using whole
  | some opening =>
      rw [earlier, Option.some_or] at whole
      have early := walking.flag.mpr ⟨opening, whole, List.mem_of_find?_eq_some earlier⟩
      simp at early

theorem visit (walking : Walking unit v done (id :: stack) imported)
    (permitted : unit.declaresType id → imported = true) :
    Walking unit v (done ++ [id]) (unit.children id ++ stack) (imported || unit.importsFramework v id) where
  order := by rw [walking.cut, List.append_assoc, List.singleton_append]
  flag := by
    constructor
    · intro isSet
      cases imported with
      | true =>
          obtain ⟨opening, isOpening, before⟩ := walking.flag.mp rfl
          exact ⟨opening, isOpening, List.mem_append_left _ before⟩
      | false => exact ⟨id, walking.openingImport?_eq_top (by simpa using isSet), by simp⟩
    · rintro ⟨opening, isOpening, member⟩
      rcases List.mem_append.mp member with before | last
      · simp [walking.flag.mpr ⟨opening, isOpening, before⟩]
      · obtain rfl : opening = id := List.mem_singleton.mp last
        have conditions := List.find?_some isOpening
        simp only [Bool.and_eq_true] at conditions
        simp [conditions.1]
  entered := by
    intro other member scope above declares
    rcases List.mem_append.mp member with child | later
    · obtain ⟨parent, toParent, lists⟩ := TransGen.tail'_iff.mp above
      rw [unit.isLinked.unique lists (mem_children.mp child)] at toParent
      rcases Relation.reflTransGen_iff_eq_or_transGen.mp toParent with rfl | proper
      · exact walking.isOpened_iff.mpr (permitted declares)
      · exact walking.entered id List.mem_cons_self scope proper declares
    · exact walking.entered other (List.mem_cons_of_mem _ later) scope above declares

theorem run (rules : List Rule) {fuel : Nat} (walking : Walking unit v done stack imported)
    (enough : (stack.flatMap unit.preorderFrom).length ≤ fuel) :
    walkStack unit v rules fuel stack imported =
      some (((stack.flatMap unit.preorderFrom).filter (unit.isVisited v)).flatMap (unit.reportAt v rules)) := by
  -- Each step moves one node, or a type declaration with all below it, from `stack` to `done`.
  induction fuel generalizing done stack imported with
  | zero =>
      cases stack with
      | nil => rfl
      | cons id stack =>
          rw [flatMap_preorderFrom_cons, List.length_cons] at enough
          omega
  | succ fuel ih =>
      cases stack with
      | nil => rfl
      | cons id stack =>
          have inOrder : id ∈ unit.preorder := by simp [walking.cut]
          obtain ⟨node, found⟩ := Option.isSome_iff_exists.mp (unit.mem_preorder.mp inOrder)
          have below : unit.children id = node.children := by simp [children, found]
          simp only [walkStack, found, ← declaresType_eq found, ← importsFramework_eq found]
          by_cases passed : unit.declaresType id = true ∧ imported = false
          · obtain ⟨declares, rfl⟩ := passed
            have unvisited : (unit.preorderFrom id).filter (unit.isVisited v) = [] :=
              List.filter_eq_nil_iff.mpr fun other member => by simp [walking.unvisited_below declares member]
            have noImport : unit.importsFramework v id = false := by
              rw [← Bool.not_eq_true]
              intro imports
              simp [declaresType_of_importsFramework imports] at declares
            have fewer : (stack.flatMap unit.preorderFrom).length ≤ fuel := by
              have own : id ∈ unit.preorderFrom id := unit.mem_preorderFrom.mpr .refl
              have positive := List.length_pos_of_mem own
              rw [List.flatMap_cons, List.length_append] at enough
              omega
            simp [declares, noImport, ih (walking.passOver declares) fewer, unvisited]
          · have permitted : unit.declaresType id → imported = true := by simpa using passed
            have visited : unit.isVisited v id = true := walking.isVisited_top_iff.mpr permitted
            have fewer : ((unit.children id ++ stack).flatMap unit.preorderFrom).length ≤ fuel := by
              rw [flatMap_preorderFrom_cons, List.length_cons] at enough
              omega
            have rest := ih (walking.visit permitted) fewer
            have entered : (unit.declaresType id && !(imported || unit.importsFramework v id)) = false := by
              cases declares : unit.declaresType id with
              | false => rfl
              | true => simp [permitted declares]
            rw [below] at rest
            rw [flatMap_preorderFrom_cons, below, List.filter_cons_of_pos visited, List.flatMap_cons]
            simp only [entered, Bool.false_eq_true, if_false, rest, Option.map_some, checkNode_eq_reportAt rules found]

end Walking

theorem walkStack_eq_visited (unit : CompilationUnit) (v : Vocabulary) (rules : List Rule) :
    walkStack unit v rules unit.nodes.size [rootId] false =
      some ((unit.preorder.filter (unit.isVisited v)).flatMap (unit.reportAt v rules)) := by
  have hanging : [rootId].flatMap unit.preorderFrom = unit.preorder := by simp [preorder]
  have enough : ([rootId].flatMap unit.preorderFrom).length ≤ unit.nodes.size :=
    hanging ▸ unit.length_preorder_le
  rw [(walking_start unit v).run rules enough, hanging]

theorem walk_eq_visited (unit : CompilationUnit) (v : Vocabulary) (rules : List Rule) :
    walk unit v rules = (unit.preorder.filter (unit.isVisited v)).flatMap (unit.reportAt v rules) := by
  rw [walk, walkStack_eq_visited, Option.getD_some]

/-- The walk empties its stack, and reports what the rules say at the visited nodes in pre-order. A node is
visited when every type declaration it is in comes after the opening import. -/
theorem walk_refines_preorder (unit : CompilationUnit) (v : Vocabulary) (rules : List Rule) :
    walkStack unit v rules unit.nodes.size [rootId] false = some (walk unit v rules) ∧
    walk unit v rules = (unit.preorder.filter (unit.isVisited v)).flatMap (unit.reportAt v rules) ∧
    unit.preorder.Nodup ∧ (∀ id, id ∈ unit.preorder ↔ (unit.node? id).isSome) ∧
    ∀ id, unit.isVisited v id ↔ ∀ scope, Reaches unit.nodes scope id → unit.declaresType scope →
      ∃ opening, unit.openingImport? v = some opening ∧ unit.Precedes opening scope := by
  refine ⟨?_, walk_eq_visited unit v rules, unit.preorder_nodup, fun id => unit.mem_preorder, fun id => ?_⟩
  · rw [walk_eq_visited, walkStack_eq_visited]
  · simp only [isVisited_iff, isOpened, Option.any_eq_true, decide_eq_true_iff]

end MockAudit
