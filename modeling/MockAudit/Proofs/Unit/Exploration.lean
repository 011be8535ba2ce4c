import MockAudit.Proofs.Unit.Entries

/-!
# Explorations of a node table

No mark is ever looked at, so on a circle that the root reaches an exploration would go on for ever. The entries of the
child lists have been looked through before, and this is enough: a node that is listed once comes on the stack once.
-/

namespace MockAudit

structure Exploration where
  stack : List NodeId
  seen : Array Bool

namespace Exploration

def start (nodes : Array Node) : Exploration := ⟨[rootId], Array.replicate nodes.size false⟩

/-- The node on top of the stack is taken. Without its entry in the table, or a place for its mark, there is no step. -/
inductive Takes (nodes : Array Node) : Exploration → NodeId → Exploration → Prop
  | top {id : NodeId} {node : Node} {children stack : List NodeId} {seen : Array Bool}
      (found : id.resolve nodes = some node) (markable : id.toNat < seen.size)
      (order : children.Perm node.children) :
      Takes nodes ⟨id :: stack, seen⟩ id ⟨children ++ stack, seen.setIfInBounds id.toNat true⟩

inductive Run (nodes : Array Node) : List NodeId → Exploration → Prop
  | nil : Run nodes [] (start nodes)
  | concat {taken : List NodeId} {exploration next : Exploration} {id : NodeId} (run : Run nodes taken exploration)
      (takes : Takes nodes exploration id next) : Run nodes (taken ++ [id]) next

end Exploration

open Exploration

variable {nodes : Array Node} {taken stack : List NodeId} {seen : Array Bool} {exploration next : Exploration}
  {id : NodeId}

/-- What is known after taking some nodes off the stack. -/
structure Marking (nodes : Array Node) (taken stack : List NodeId) (seen : Array Bool) : Prop where
  size_eq : seen.size = nodes.size
  marked : ∀ id : NodeId, id.resolve seen = some true ↔ id ∈ taken
  distinct : (taken ++ stack).Nodup
  inRange : ∀ id ∈ taken ++ stack, id.toNat < nodes.size
  reached : ∀ id ∈ taken ++ stack, Reaches nodes rootId id
  root : rootId ∈ taken ++ stack
  origin : ∀ id ∈ taken ++ stack, id = rootId ∨ ∃ parent ∈ taken, Lists nodes parent id
  closed : ∀ id ∈ taken, ∀ child, Lists nodes id child → child ∈ taken ++ stack

theorem marking_start (nonempty : 0 < nodes.size) :
    Marking nodes [] [rootId] (Array.replicate nodes.size false) where
  size_eq := by simp
  marked id := by simp [Ref.resolve, Array.getElem?_replicate]
  distinct := by simp
  inRange id member := by
    obtain rfl : id = rootId := by simpa using member
    exact nonempty
  reached id member := by
    obtain rfl : id = rootId := by simpa using member
    exact .refl
  root := by simp
  origin id member := .inl (by simpa using member)
  closed id member := by simp at member

theorem Marking.step (linked : Linked nodes) (marking : Marking nodes taken exploration.stack exploration.seen)
    (takes : Takes nodes exploration id next) : Marking nodes (taken ++ [id]) next.stack next.seen := by
  cases takes with | @top id node children stack seen found markable order =>
  have member (other : NodeId) : other ∈ (taken ++ [id]) ++ (children ++ stack) ↔
      other ∈ taken ++ id :: stack ∨ other ∈ node.children := by
    simp only [List.mem_append, List.mem_cons, order.mem_iff]
    tauto
  have lists {child : NodeId} (below : child ∈ node.children) : Lists nodes id child := ⟨node, found, below⟩
  have current : id ∈ taken ++ id :: stack := by simp
  have notTaken : id ∉ taken := fun old => (List.nodup_append.mp marking.distinct).2.2 id old id (by simp) rfl
  -- A child that is already known would have a parent among the nodes taken before `id`.
  have fresh {child : NodeId} (below : child ∈ node.children) : child ∉ taken ++ id :: stack := by
    intro known
    rcases marking.origin child known with isRoot | ⟨parent, earlier, listsToo⟩
    · exact linked.rootFree (isRoot ▸ lists below)
    · exact notTaken (linked.unique listsToo (lists below) ▸ earlier)
  constructor
  · simpa using marking.size_eq
  · intro other
    rw [Ref.resolve_setIfInBounds markable]
    by_cases same : other = id <;> simp [same, marking.marked]
  · have permuted : ((taken ++ [id]) ++ (children ++ stack)).Perm ((taken ++ id :: stack) ++ node.children) := by
      simpa using ((order.append_right stack).trans List.perm_append_comm).cons id |>.append_left taken
    rw [permuted.nodup_iff, List.nodup_append]
    exact ⟨marking.distinct, linked.distinct found, fun other known child below equal =>
      fresh below (equal ▸ known)⟩
  · intro other known
    rcases (member other).mp known with old | below
    · exact marking.inRange other old
    · exact linked.inRange (lists below)
  · intro other known
    rcases (member other).mp known with old | below
    · exact marking.reached other old
    · exact (marking.reached id current).tail (lists below)
  · exact (member rootId).mpr (.inl marking.root)
  · intro other known
    rcases (member other).mp known with old | below
    · rcases marking.origin other old with isRoot | ⟨parent, earlier, listsToo⟩
      · exact .inl isRoot
      · exact .inr ⟨parent, List.mem_append_left _ earlier, listsToo⟩
    · exact .inr ⟨id, by simp, lists below⟩
  · intro other known child listsToo
    rcases List.mem_append.mp known with old | new
    · exact (member child).mpr (.inl (marking.closed other old child listsToo))
    · obtain ⟨own, ownFound, below⟩ := listsToo
      rw [List.mem_singleton.mp new, found, Option.some.injEq] at ownFound
      exact (member child).mpr (.inr (ownFound ▸ below))

theorem Marking.exists_takes (marking : Marking nodes taken (id :: stack) seen) :
    ∃ node, id.resolve nodes = some node ∧
      Takes nodes ⟨id :: stack, seen⟩ id ⟨node.children ++ stack, seen.setIfInBounds id.toNat true⟩ := by
  have inside := marking.inRange id (by simp)
  obtain ⟨node, found⟩ := Option.isSome_iff_exists.mp (Ref.resolve_isSome.mpr inside)
  exact ⟨node, found, .top found (marking.size_eq ▸ inside) (.refl _)⟩

theorem Marking.length_le (marking : Marking nodes taken stack seen) : taken.length + stack.length ≤ nodes.size := by
  rw [← List.length_append]
  exact Ref.length_le_of_nodup marking.distinct marking.inRange

theorem Marking.mem_iff (marking : Marking nodes taken [] seen) (id : NodeId) :
    id ∈ taken ↔ Reaches nodes rootId id := by
  constructor
  · intro known
    exact marking.reached id (List.mem_append_left _ known)
  · intro reaches
    induction reaches with
    | refl => simpa using marking.root
    | tail _ lists ih => simpa using marking.closed _ ih _ lists

namespace Exploration

theorem Run.marking (linked : Linked nodes) (nonempty : 0 < nodes.size) (run : Run nodes taken exploration) :
    Marking nodes taken exploration.stack exploration.seen := by
  induction run with
  | nil => exact marking_start nonempty
  | concat _ takes ih => exact ih.step linked takes

theorem Run.seen_getElem? (run : Run nodes taken exploration) (index : Nat) :
    exploration.seen[index]? = some true ↔ ∃ id ∈ taken, id.toNat = index := by
  induction run with
  | nil => simp [start, Array.getElem?_replicate]
  | concat _ takes ih =>
      obtain ⟨-, markable, -⟩ := takes
      rw [Array.getElem?_setIfInBounds]
      split
      · rename_i own
        simp [own]
      · rename_i elsewhere
        simp [ih, elsewhere]

/-- No node is taken twice, so as many steps as there are nodes leave nothing on the stack. -/
theorem Run.exists_end (linked : Linked nodes) (nonempty : 0 < nodes.size) {fuel : Nat}
    (run : Run nodes taken ⟨stack, seen⟩) (enough : nodes.size ≤ fuel + taken.length) :
    ∃ all, Run nodes all ⟨[], markReachable nodes fuel stack seen⟩ := by
  induction fuel generalizing taken stack seen with
  | zero =>
      have few : taken.length + stack.length ≤ nodes.size := (run.marking linked nonempty).length_le
      obtain rfl : stack = [] := List.eq_nil_of_length_eq_zero (by omega)
      exact ⟨taken, run⟩
  | succ fuel ih =>
      cases stack with
      | nil => exact ⟨taken, run⟩
      | cons id stack =>
          obtain ⟨node, found, takes⟩ := (run.marking linked nonempty).exists_takes
          rw [markReachable, found]
          exact ih (run.concat takes) (by simp; omega)

end Exploration

theorem markReachable_size (nodes : Array Node) (fuel : Nat) (stack : List NodeId) (seen : Array Bool) :
    (markReachable nodes fuel stack seen).size = seen.size := by
  induction fuel generalizing stack seen with
  | zero => rfl
  | succ fuel ih =>
      cases stack with
      | nil => rfl
      | cons id stack => rw [markReachable, ih, Array.size_setIfInBounds]

def marks (nodes : Array Node) : Array Bool :=
  markReachable nodes nodes.size [rootId] (Array.replicate nodes.size false)

theorem marks_size (nodes : Array Node) : (marks nodes).size = nodes.size := by
  simp [marks, markReachable_size]

theorem marks_spec (linked : Linked nodes) (nonempty : 0 < nodes.size) (id : NodeId) :
    id.resolve (marks nodes) = some true ↔ Reaches nodes rootId id := by
  obtain ⟨taken, run⟩ := Run.exists_end linked nonempty .nil (Nat.le_add_right nodes.size _)
  have marking := run.marking linked nonempty
  exact (marking.marked id).trans (marking.mem_iff id)

theorem marks_getElem (bounded : nodes.size ≤ 2 ^ 32) (linked : Linked nodes) (nonempty : 0 < nodes.size)
    {index : Nat} (inside : index < (marks nodes).size) :
    (marks nodes)[index] = true ↔ Reaches nodes rootId (.ofNat index) := by
  have small : index < 2 ^ 32 := by rw [marks_size] at inside; omega
  rw [← marks_spec linked nonempty, Ref.resolve, Ref.toNat_ofNat small]
  simp [inside]

/-- An exploration takes no node twice, can go on until nothing is left, and has then marked exactly what the root
reaches. Validation marks by such an exploration. -/
theorem exploration_marks_reachable (nodes : Array Node) (parents : ParentIndex) (nonempty : 0 < nodes.size)
    (entered : enterNodes 0 nodes.toList (Array.replicate nodes.size none) = .ok parents) :
    (∀ taken exploration, Run nodes taken exploration →
      taken.Nodup ∧ taken.length ≤ nodes.size ∧
      (∀ id ∈ taken ++ exploration.stack, id.toNat < nodes.size) ∧ exploration.seen.size = nodes.size ∧
      (exploration.stack = [] ∨ ∃ id next, Takes nodes exploration id next) ∧
      (exploration.stack = [] → ∀ index, exploration.seen[index]? = some true ↔
        ∃ id : NodeId, id.toNat = index ∧ Reaches nodes rootId id)) ∧
    ∃ taken, Run nodes taken ⟨[], marks nodes⟩ := by
  have linked : Linked nodes := (sound_of_enterNodes entered).linked
  refine ⟨fun taken exploration run => ?_, Run.exists_end linked nonempty .nil (Nat.le_add_right _ _)⟩
  have marking := run.marking linked nonempty
  refine ⟨(List.nodup_append.mp marking.distinct).1, Nat.le_of_add_right_le marking.length_le, marking.inRange,
    marking.size_eq, ?_, ?_⟩
  · obtain ⟨stack, seen⟩ := exploration
    cases stack with
    | nil => exact .inl rfl
    | cons id stack =>
        obtain ⟨node, -, takes⟩ := marking.exists_takes
        exact .inr ⟨id, _, takes⟩
  · intro ended index
    rw [ended] at marking
    simp only [run.seen_getElem?, marking.mem_iff, and_comm]

def detachedCircle : Array Node :=
  #[⟨.compilationUnit, ⟨0, 9⟩, [⟨1⟩, ⟨2⟩]⟩, ⟨.block, ⟨0, 1⟩, []⟩, ⟨.block, ⟨1, 1⟩, []⟩, ⟨.block, ⟨2, 5⟩, [⟨4⟩]⟩,
    ⟨.block, ⟨2, 5⟩, [⟨3⟩]⟩]

theorem exploration_marks_reachable_detachedCircle :
    enterNodes 0 detachedCircle.toList (Array.replicate 5 none) =
      .ok #[none, some ⟨0⟩, some ⟨0⟩, some ⟨4⟩, some ⟨3⟩] ∧
    (∃ taken, Run detachedCircle taken ⟨[], #[true, true, true, false, false]⟩) ∧
    ∀ taken exploration, Run detachedCircle taken exploration → taken.length ≤ 5 ∧
      (exploration.stack = [] → exploration.seen[2]? = some true ∧ exploration.seen[3]? ≠ some true) := by
  have entered : enterNodes 0 detachedCircle.toList (Array.replicate 5 none) =
      .ok #[none, some ⟨0⟩, some ⟨0⟩, some ⟨4⟩, some ⟨3⟩] := by decide
  obtain ⟨all, ends⟩ := exploration_marks_reachable detachedCircle _ (by decide) entered
  have marked : marks detachedCircle = #[true, true, true, false, false] := by decide
  rw [marked] at ends
  refine ⟨entered, ends, fun taken exploration run => ⟨(all taken exploration run).2.1, fun ended => ?_⟩⟩
  have same (index : Nat) : exploration.seen[index]? = some true ↔
      #[true, true, true, false, false][index]? = some true := by
    obtain ⟨order, marking⟩ := ends
    rw [(all _ _ run).2.2.2.2.2 ended, (all _ _ marking).2.2.2.2.2 rfl]
  exact ⟨(same 2).mpr (by decide), fun marked => absurd ((same 3).mp marked) (by decide)⟩

end MockAudit
