import MockAudit.Proofs.Unit.Ancestry

namespace MockAudit

theorem lists_iff_mem {nodes : Array Node} {parent child : NodeId} :
    Lists nodes parent child ↔ child ∈ ((parent.resolve nodes).map (·.children)).getD [] := by
  unfold Lists
  cases parent.resolve nodes <;> simp

namespace CompilationUnit

open Relation (TransGen ReflTransGen)

def children (unit : CompilationUnit) (id : NodeId) : List NodeId :=
  ((unit.node? id).map (·.children)).getD []

theorem mem_children {unit : CompilationUnit} {id child : NodeId} :
    child ∈ unit.children id ↔ Lists unit.nodes id child := lists_iff_mem.symm

def preorderFrom (unit : CompilationUnit) (id : NodeId) : List NodeId :=
  id :: (unit.children id).attach.flatMap fun child => unit.preorderFrom child.1
termination_by unit.descent.wrap id
decreasing_by exact mem_children.mp child.2

def preorder (unit : CompilationUnit) : List NodeId := unit.preorderFrom rootId

variable (unit : CompilationUnit)

theorem preorderFrom_eq (id : NodeId) :
    unit.preorderFrom id = id :: (unit.children id).flatMap unit.preorderFrom := by
  rw [preorderFrom]
  simp [List.flatMap_def]

theorem flatMap_preorderFrom_cons (id : NodeId) (stack : List NodeId) :
    (id :: stack).flatMap unit.preorderFrom =
      id :: (unit.children id ++ stack).flatMap unit.preorderFrom := by
  rw [List.flatMap_cons, preorderFrom_eq, List.flatMap_append, List.cons_append]

theorem mem_preorderFrom {id other : NodeId} :
    other ∈ unit.preorderFrom id ↔ Reaches unit.nodes id other := by
  induction id using unit.descent.induction with
  | _ id ih =>
      rw [preorderFrom_eq, List.mem_cons, List.mem_flatMap, Reaches, ReflTransGen.cases_head_iff, eq_comm]
      refine or_congr_right (exists_congr fun child => ?_)
      rw [mem_children]
      exact and_congr_right fun lists => ih child lists

theorem children_nodup (id : NodeId) : (unit.children id).Nodup := by
  unfold children
  cases found : unit.node? id with
  | none => simp
  | some node => exact unit.isLinked.distinct found

theorem sibling_disjoint {parent first second id : NodeId} (listsFirst : Lists unit.nodes parent first)
    (listsSecond : Lists unit.nodes parent second) (reachesFirst : Reaches unit.nodes first id)
    (reachesSecond : Reaches unit.nodes second id) : first = second := by
  have alone {upper lower : NodeId} (listsUpper : Lists unit.nodes parent upper)
      (listsLower : Lists unit.nodes parent lower) (path : Reaches unit.nodes upper lower) : upper = lower := by
    rcases path.cases_tail with same | ⟨last, toLast, listsToo⟩
    · exact same.symm
    · -- The path ends in the common parent, which lists its start: a cycle.
      rw [unit.isLinked.unique listsToo listsLower] at toLast
      exact absurd (TransGen.tail' toLast listsUpper) (unit.not_above_self upper)
  rcases unit.above_total reachesFirst reachesSecond with path | path
  · exact alone listsFirst listsSecond path
  · exact (alone listsSecond listsFirst path).symm

theorem preorderFrom_nodup (id : NodeId) : (unit.preorderFrom id).Nodup := by
  induction id using unit.descent.induction with
  | _ id ih =>
      rw [preorderFrom_eq, List.nodup_cons, List.nodup_flatMap]
      refine ⟨?_, fun child member => ih child (mem_children.mp member), ?_⟩
      · intro again
        obtain ⟨child, member, below⟩ := List.mem_flatMap.mp again
        exact unit.not_above_self id (TransGen.head' (mem_children.mp member) (unit.mem_preorderFrom.mp below))
      · refine (unit.children_nodup id).pairwise_of_forall_ne fun first memberFirst second memberSecond ne => ?_
        intro other belowFirst belowSecond
        exact ne (unit.sibling_disjoint (mem_children.mp memberFirst) (mem_children.mp memberSecond)
          (unit.mem_preorderFrom.mp belowFirst) (unit.mem_preorderFrom.mp belowSecond))

theorem preorder_nodup : unit.preorder.Nodup := unit.preorderFrom_nodup rootId

theorem mem_preorder {id : NodeId} : id ∈ unit.preorder ↔ (unit.node? id).isSome := by
  rw [preorder, mem_preorderFrom, node?_isSome]
  refine ⟨fun reaches => ?_, unit.isTree.reached id⟩
  rcases reaches.cases_tail with rfl | ⟨parent, -, lists⟩
  · exact unit.isTree.nonempty
  · exact unit.isLinked.inRange lists

theorem length_preorder_le : unit.preorder.length ≤ unit.nodes.size :=
  Ref.length_le_of_nodup unit.preorder_nodup fun _ member =>
    unit.node?_isSome.mp (unit.mem_preorder.mp member)

def Precedes (first second : NodeId) : Prop := [first, second].Sublist unit.preorder

instance (first second : NodeId) : Decidable (unit.Precedes first second) :=
  inferInstanceAs (Decidable ([first, second].Sublist unit.preorder))

theorem precedes_iff {before after : List NodeId} {id other : NodeId}
    (cut : unit.preorder = before ++ id :: after) : unit.Precedes other id ↔ other ∈ before := by
  have distinct : (before ++ id :: after).Nodup := cut ▸ unit.preorder_nodup
  have unique : id ∉ after := (List.nodup_cons.mp (List.nodup_append.mp distinct).2.1).1
  rw [Precedes, cut]
  constructor
  · intro sublist
    obtain ⟨left, right, split, leftPart, rightPart⟩ := List.sublist_append_iff.mp sublist
    cases left with
    | nil =>
        rw [← List.nil_append right, ← split] at rightPart
        exact absurd (List.singleton_sublist.mp rightPart.of_cons_cons) unique
    | cons head tail =>
        obtain rfl : other = head := by simpa using congrArg List.head? split
        exact leftPart.subset List.mem_cons_self
  · intro member
    exact (List.singleton_sublist.mpr member).append (List.singleton_sublist.mpr List.mem_cons_self)

theorem Precedes.exists_cut {first second : NodeId} (precedes : unit.Precedes first second) :
    ∃ before after, unit.preorder = before ++ second :: after :=
  List.append_of_mem (precedes.subset (by simp))

theorem precedes_trans {first second third : NodeId} (earlier : unit.Precedes first second)
    (later : unit.Precedes second third) : unit.Precedes first third := by
  obtain ⟨before, after, cut⟩ := later.exists_cut
  obtain ⟨start, between, split⟩ := List.append_of_mem ((unit.precedes_iff cut).mp later)
  -- The order cut at the third node is cut at the second one as well.
  have cutToo : unit.preorder = start ++ second :: (between ++ third :: after) := by simp [cut, split]
  rw [unit.precedes_iff cut, split]
  exact List.mem_append_left _ ((unit.precedes_iff cutToo).mp earlier)

theorem preorderFrom_withSymbols (symbols : Symbols) (id : NodeId) :
    (unit.withSymbols symbols).preorderFrom id = unit.preorderFrom id := by
  induction id using unit.descent.induction with
  | _ id ih =>
      rw [preorderFrom_eq, preorderFrom_eq]
      exact congrArg (id :: ·) (List.flatMap_congr fun child member => ih child (mem_children.mp member))

theorem preorder_withSymbols (symbols : Symbols) : (unit.withSymbols symbols).preorder = unit.preorder :=
  unit.preorderFrom_withSymbols symbols rootId

end CompilationUnit
end MockAudit
