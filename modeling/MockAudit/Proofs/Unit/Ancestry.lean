import MockAudit.Proofs.Unit.Tree
import MockAudit.Proofs.Unit.Validation
import MockAudit.Unit.Basic
import Mathlib.Data.Fintype.EquivFin

namespace MockAudit

open Relation (TransGen ReflTransGen)

instance (table : Table) : Finite (Ref table) :=
  Finite.of_injective (fun ref => (⟨ref.toNat, ref.toNat_lt⟩ : Fin (2 ^ 32)))
    fun _ _ same => Ref.toNat_injective (congrArg Fin.val same)

theorem markReachable_beyond (nodes : Array Node) (fuel : Nat) (stack : List NodeId) (seen : Array Bool)
    {index : Nat} (beyond : 2 ^ 32 ≤ index) : (markReachable nodes fuel stack seen)[index]? = seen[index]? := by
  induction fuel generalizing stack seen with
  | zero => rfl
  | succ fuel ih =>
      cases stack with
      | nil => rfl
      | cons id stack =>
          have elsewhere : id.toNat ≠ index := by have := id.toNat_lt; omega
          rw [markReachable, ih, Array.getElem?_setIfInBounds_ne elsewhere]

/-- No reference points past position 2³², so a longer table has a node that cannot be reached. -/
theorem size_le_of_parentIndex {nodes : Array Node} {parents : ParentIndex}
    (accepted : parentIndex nodes = .ok parents) : nodes.size ≤ 2 ^ 32 := by
  by_contra large
  have unmarked : (marks nodes)[2 ^ 32]? = some false := by
    rw [marks, markReachable_beyond _ _ _ _ (Nat.le_refl _), Array.getElem?_replicate]
    simp only [ite_eq_left_iff]
    omega
  simp only [parentIndex] at accepted
  split at accepted
  · simp at accepted
  · split at accepted
    · simp at accepted
    · split at accepted
      · simp at accepted
      · rename_i allMarked
        have marked := Array.findIdx?_eq_none_iff.mp allMarked false (Array.mem_of_getElem? unmarked)
        simp at marked

theorem Linked.acyclic {nodes : Array Node} (linked : Linked nodes) {id : NodeId}
    (reached : Reaches nodes rootId id) : ¬ TransGen (Lists nodes) id id := by
  induction reached with
  | refl =>
      intro cycle
      obtain ⟨parent, -, lists⟩ := TransGen.tail'_iff.mp cycle
      exact linked.rootFree lists
  | @tail parent child _ lists ih =>
      intro cycle
      -- The cycle enters the child through its only parent, so it passes through the parent too.
      obtain ⟨last, path, listsToo⟩ := TransGen.tail'_iff.mp cycle
      rw [linked.unique listsToo lists] at path
      exact ih (TransGen.head' lists path)

namespace CompilationUnit

variable (unit : CompilationUnit)

theorem nodes_size_le : unit.nodes.size ≤ 2 ^ 32 := size_le_of_parentIndex unit.linked

theorem isTree : IsTree unit.nodes := by
  rcases isTree_or_firstDefect unit.nodes_size_le with tree | ⟨defect, first⟩
  · exact tree
  · have rejected := parentIndex_of_firstDefect unit.nodes_size_le first
    simp [unit.linked] at rejected

theorem isLinked : Linked unit.nodes := unit.isTree.sound.linked

theorem node?_isSome {id : NodeId} : (unit.node? id).isSome ↔ id.toNat < unit.nodes.size := Ref.resolve_isSome

theorem parent?_eq_some {child parent : NodeId} :
    unit.parent? child = some parent ↔ Lists unit.nodes parent child := by
  obtain ⟨parents, accepted, recorded⟩ := parentIndex_of_isTree unit.nodes_size_le unit.isTree
  obtain rfl : unit.parents = parents := by simpa [unit.linked] using accepted
  rw [← mem_entries unit.nodes_size_le, ← recorded.entered, parent?, Option.join_eq_some_iff]

/-! ## Descent -/

theorem not_above_self (id : NodeId) : ¬ TransGen (Lists unit.nodes) id id := by
  intro cycle
  obtain ⟨parent, -, lists⟩ := TransGen.tail'_iff.mp cycle
  exact unit.isLinked.acyclic (unit.isTree.reached id (unit.isLinked.inRange lists)) cycle

theorem descent : WellFounded fun child parent => Lists unit.nodes parent child := by
  let below : NodeId → NodeId → Prop := fun child parent => TransGen (Lists unit.nodes) parent child
  have trans : IsTrans NodeId below := ⟨fun _ _ _ lower upper => upper.trans lower⟩
  have irrefl : Std.Irrefl below := ⟨unit.not_above_self⟩
  have wellFounded : WellFounded below := Finite.wellFounded_of_trans_of_irrefl below
  exact Subrelation.wf (fun lists => TransGen.single lists) wellFounded

theorem above_total {upper lower id : NodeId} (first : Reaches unit.nodes upper id)
    (second : Reaches unit.nodes lower id) : Reaches unit.nodes upper lower ∨ Reaches unit.nodes lower upper := by
  have unique : Relator.RightUnique fun child parent => Lists unit.nodes parent child :=
    fun _ _ _ lists listsToo => unit.isLinked.unique lists listsToo
  have up := ReflTransGen.total_of_right_unique unique (Relation.reflTransGen_swap.mpr first)
    (Relation.reflTransGen_swap.mpr second)
  exact up.symm.imp Relation.reflTransGen_swap.mp Relation.reflTransGen_swap.mp

/-! ## Ancestors -/

theorem above_of_mem_parentChain {fuel : Nat} {id ancestor : NodeId}
    (member : ancestor ∈ unit.parentChain fuel (unit.parent? id)) :
    TransGen (Lists unit.nodes) ancestor id := by
  induction fuel generalizing id with
  | zero => simp [parentChain] at member
  | succ fuel ih =>
      cases found : unit.parent? id with
      | none => simp [found, parentChain] at member
      | some parent =>
          have lists := unit.parent?_eq_some.mp found
          rw [found, parentChain, List.mem_cons] at member
          rcases member with rfl | higher
          · exact .single lists
          · exact (ih higher).tail lists

theorem parentChain_nodup (fuel : Nat) (id : NodeId) : (unit.parentChain fuel (unit.parent? id)).Nodup := by
  induction fuel generalizing id with
  | zero => simp [parentChain]
  | succ fuel ih =>
      cases unit.parent? id with
      | none => simp [parentChain]
      | some parent =>
          rw [parentChain, List.nodup_cons]
          exact ⟨fun again => unit.not_above_self parent (unit.above_of_mem_parentChain again), ih parent⟩

theorem parentChain_take (fuel more : Nat) (start : Option NodeId) :
    (unit.parentChain (fuel + more) start).take fuel = unit.parentChain fuel start := by
  induction fuel generalizing start with
  | zero => simp [parentChain]
  | succ fuel ih =>
      cases start with
      | none => simp [Nat.add_right_comm, parentChain]
      | some parent => simp [Nat.add_right_comm, parentChain, ih]

theorem length_parentChain_le (fuel : Nat) (id : NodeId) :
    (unit.parentChain fuel (unit.parent? id)).length ≤ unit.nodes.size := by
  apply Ref.length_le_of_nodup (unit.parentChain_nodup fuel id)
  intro ancestor member
  obtain ⟨child, ⟨node, found, -⟩, -⟩ := TransGen.head'_iff.mp (unit.above_of_mem_parentChain member)
  exact Ref.resolve_isSome.mp (by simp [found])

theorem exists_parentChain {ancestor id : NodeId} (above : TransGen (Lists unit.nodes) ancestor id) :
    ∃ fuel, ancestor ∈ unit.parentChain fuel (unit.parent? id) := by
  induction above with
  | single lists => exact ⟨1, by simp [unit.parent?_eq_some.mpr lists, parentChain]⟩
  | tail _ lists ih =>
      obtain ⟨fuel, member⟩ := ih
      exact ⟨fuel + 1, by simp [unit.parent?_eq_some.mpr lists, parentChain, member]⟩

theorem ancestors_eq_parentChain (more : Nat) (id : NodeId) :
    unit.ancestors id = unit.parentChain (unit.nodes.size + more) (unit.parent? id) := by
  rw [ancestors, ← unit.parentChain_take unit.nodes.size more]
  exact List.take_of_length_le (unit.length_parentChain_le _ id)

theorem mem_ancestors {ancestor id : NodeId} :
    ancestor ∈ unit.ancestors id ↔ TransGen (Lists unit.nodes) ancestor id := by
  refine ⟨unit.above_of_mem_parentChain, fun above => ?_⟩
  obtain ⟨fuel, member⟩ := unit.exists_parentChain above
  rw [← unit.parentChain_take fuel unit.nodes.size, Nat.add_comm, ← unit.ancestors_eq_parentChain] at member
  exact List.mem_of_mem_take member

theorem parentChain_pairwise (fuel : Nat) (id : NodeId) :
    (unit.parentChain fuel (unit.parent? id)).Pairwise fun lower upper => TransGen (Lists unit.nodes) upper lower := by
  induction fuel generalizing id with
  | zero => simp [parentChain]
  | succ fuel ih =>
      cases unit.parent? id with
      | none => simp [parentChain]
      | some parent =>
          rw [parentChain, List.pairwise_cons]
          exact ⟨fun upper member => unit.above_of_mem_parentChain member, ih parent⟩

theorem ancestors_pairwise (id : NodeId) :
    (unit.ancestors id).Pairwise fun lower upper => TransGen (Lists unit.nodes) upper lower :=
  unit.parentChain_pairwise unit.nodes.size id

theorem ancestors_eq (id : NodeId) :
    unit.ancestors id = (unit.parent? id).toList.flatMap fun parent => parent :: unit.ancestors parent := by
  rw [unit.ancestors_eq_parentChain 1 id]
  cases unit.parent? id with
  | none => rfl
  | some parent => simp [parentChain, ancestors]

theorem getElem?_ancestors (id : NodeId) (index : Nat) :
    (id :: unit.ancestors id)[index + 1]? = (id :: unit.ancestors id)[index]?.bind unit.parent? := by
  induction index generalizing id with
  | zero =>
      rw [ancestors_eq]
      cases above : unit.parent? id <;> simp [above]
  | succ index ih =>
      rw [ancestors_eq]
      cases unit.parent? id with
      | none => simp
      | some parent => simpa using ih parent

/-! ## Climbing to the root -/

/-- Following parents from a node on, for as long as there is one, comes to an end after these nodes. -/
inductive Climbs : Option NodeId → List NodeId → Prop where
  | top : Climbs none []
  | up {id : NodeId} {higher : List NodeId} : Climbs (unit.parent? id) higher → Climbs (some id) (id :: higher)

theorem climbs_iff {id : NodeId} {passed : List NodeId} :
    unit.Climbs (unit.parent? id) passed ↔ passed = unit.ancestors id := by
  induction passed generalizing id with
  | nil =>
      rw [ancestors_eq]
      cases unit.parent? id with
      | none => simpa using Climbs.top
      | some parent => simpa using fun climbs : unit.Climbs (some parent) [] => nomatch climbs
  | cons first higher ih =>
      rw [ancestors_eq]
      cases unit.parent? id with
      | none => simpa using fun climbs : unit.Climbs none (first :: higher) => nomatch climbs
      | some parent =>
          simp only [Option.toList_some, List.flatMap_cons, List.flatMap_nil, List.append_nil, List.cons.injEq]
          constructor
          · rintro (_ | rest)
            exact ⟨rfl, ih.mp rest⟩
          · rintro ⟨rfl, rest⟩
            exact .up (ih.mpr rest)

theorem lt_iff_above {id lower upper : NodeId} {i j : Nat} (atLower : (unit.ancestors id)[i]? = some lower)
    (atUpper : (unit.ancestors id)[j]? = some upper) : i < j ↔ TransGen (Lists unit.nodes) upper lower := by
  obtain ⟨_, rfl⟩ := List.getElem?_eq_some_iff.mp atLower
  obtain ⟨_, rfl⟩ := List.getElem?_eq_some_iff.mp atUpper
  have ordered := List.pairwise_iff_getElem.mp (unit.ancestors_pairwise id)
  refine ⟨ordered i j _ _, fun above => ?_⟩
  by_contra later
  rcases Nat.lt_or_eq_of_le (Nat.le_of_not_lt later) with before | rfl
  · exact unit.not_above_self _ (above.trans (ordered j i _ _ before))
  · exact unit.not_above_self _ above

theorem not_above_root (id : NodeId) : ¬ TransGen (Lists unit.nodes) id rootId := by
  intro above
  obtain ⟨parent, -, lists⟩ := TransGen.tail'_iff.mp above
  exact unit.isLinked.rootFree lists

theorem root_mem_ancestors {id : NodeId} :
    rootId ∈ unit.ancestors id ↔ id ≠ rootId ∧ id.toNat < unit.nodes.size := by
  rw [mem_ancestors]
  constructor
  · intro above
    obtain ⟨parent, -, lists⟩ := TransGen.tail'_iff.mp above
    exact ⟨fun root => unit.isLinked.rootFree (root ▸ lists), unit.isLinked.inRange lists⟩
  · rintro ⟨notRoot, inRange⟩
    have reached := Relation.reflTransGen_iff_eq_or_transGen.mp (unit.isTree.reached id inRange)
    exact reached.resolve_left notRoot

theorem ancestors_eq_nil {id : NodeId} : unit.ancestors id = [] ↔ id = rootId ∨ unit.nodes.size ≤ id.toNat := by
  constructor
  · intro empty
    by_contra! inside
    have rootAbove := unit.root_mem_ancestors.mpr inside
    simp [empty] at rootAbove
  · intro outside
    refine List.eq_nil_iff_forall_not_mem.mpr fun ancestor member => ?_
    obtain ⟨parent, -, lists⟩ := TransGen.tail'_iff.mp (unit.mem_ancestors.mp member)
    rcases outside with rfl | beyond
    · exact unit.isLinked.rootFree lists
    · exact absurd (unit.isLinked.inRange lists) (Nat.not_lt.mpr beyond)

theorem getLast?_ancestors {id : NodeId} :
    (unit.ancestors id).getLast? = some rootId ↔ id ≠ rootId ∧ id.toNat < unit.nodes.size := by
  rw [← root_mem_ancestors]
  refine ⟨List.mem_of_getLast?, fun member => ?_⟩
  obtain ⟨index, inside, atIndex⟩ := List.getElem_of_mem member
  obtain ⟨top, atTop⟩ : ∃ top, (unit.ancestors id)[(unit.ancestors id).length - 1]? = some top :=
    ⟨_, List.getElem?_eq_getElem (by omega)⟩
  -- Nothing stands above the root, so nothing is listed after it.
  have highest : ¬ index < (unit.ancestors id).length - 1 := fun before =>
    unit.not_above_root top ((unit.lt_iff_above (List.getElem?_eq_some_iff.mpr ⟨inside, atIndex⟩) atTop).mp before)
  obtain rfl : index = (unit.ancestors id).length - 1 := by omega
  rw [List.getLast?_eq_getElem?]
  exact List.getElem?_eq_some_iff.mpr ⟨inside, atIndex⟩

/-- Following the parents of a node comes to an end, with nothing to bound it. They end with the root, except that the
root and nodes out of range have none. -/
theorem ancestors_lead_to_root (id : NodeId) :
    (∀ passed, unit.Climbs (unit.parent? id) passed ↔ passed = unit.ancestors id) ∧
    (id :: unit.ancestors id).Nodup ∧
    (∀ ancestor, ancestor ∈ unit.ancestors id ↔ TransGen (Lists unit.nodes) ancestor id) ∧
    (∀ (i j : Nat) (lower upper : NodeId), (unit.ancestors id)[i]? = some lower →
      (unit.ancestors id)[j]? = some upper → (i < j ↔ TransGen (Lists unit.nodes) upper lower)) ∧
    (unit.ancestors id = [] ↔ id = rootId ∨ unit.nodes.size ≤ id.toNat) ∧
    ((unit.ancestors id).getLast? = some rootId ↔ id ≠ rootId ∧ id.toNat < unit.nodes.size) := by
  refine ⟨fun _ => unit.climbs_iff, ?_, fun _ => unit.mem_ancestors, fun _ _ _ _ => unit.lt_iff_above,
    unit.ancestors_eq_nil, unit.getLast?_ancestors⟩
  exact List.nodup_cons.mpr ⟨fun own => unit.not_above_self id (unit.mem_ancestors.mp own),
    unit.parentChain_nodup _ id⟩

def upsideDown : Draft where
  path := "CartTest.java"
  source := some ""
  nodes := #[⟨.compilationUnit, ⟨0, 0⟩, [⟨3⟩]⟩, ⟨.other, ⟨0, 0⟩, []⟩, ⟨.other, ⟨0, 0⟩, [⟨1⟩]⟩,
    ⟨.other, ⟨0, 0⟩, [⟨2⟩]⟩]

theorem ancestors_lead_to_root_upsideDown : ∃ unit, upsideDown.validate = .ok unit ∧
    unit.ancestors ⟨1⟩ = [⟨2⟩, ⟨3⟩, ⟨0⟩] ∧ unit.Climbs (unit.parent? ⟨1⟩) [⟨2⟩, ⟨3⟩, ⟨0⟩] ∧
    TransGen (Lists unit.nodes) ⟨3⟩ ⟨2⟩ ∧ unit.ancestors ⟨0⟩ = [] ∧ unit.ancestors ⟨4⟩ = [] := by
  obtain ⟨unit, valid, seen⟩ := Draft.exists_of_validate_map (show (upsideDown.validate.map fun unit =>
    (unit.nodes.size, unit.ancestors ⟨1⟩)) = .ok (4, [⟨2⟩, ⟨3⟩, ⟨0⟩]) by decide +kernel)
  simp only [Prod.mk.injEq] at seen
  obtain ⟨size, chain⟩ := seen
  have first := unit.ancestors_lead_to_root ⟨1⟩
  have above := (first.2.2.2.1 0 1 ⟨2⟩ ⟨3⟩ (by rw [chain]; rfl) (by rw [chain]; rfl)).mp (by decide)
  have root := (unit.ancestors_lead_to_root ⟨0⟩).2.2.2.2.1.mpr (.inl rfl)
  have beyond := (unit.ancestors_lead_to_root ⟨4⟩).2.2.2.2.1.mpr (.inr (by rw [size]; decide))
  exact ⟨unit, valid, chain, (first.1 _).mpr chain.symm, above, root, beyond⟩

/-! ## Other symbols -/

def withSymbols (symbols : Symbols) : CompilationUnit := { unit with symbols }

theorem parentChain_withSymbols (symbols : Symbols) (fuel : Nat) (start : Option NodeId) :
    (unit.withSymbols symbols).parentChain fuel start = unit.parentChain fuel start := by
  induction fuel generalizing start with
  | zero => rfl
  | succ fuel ih =>
      cases start with
      | none => rfl
      | some id => exact congrArg (id :: ·) (ih (unit.parent? id))

theorem ancestors_withSymbols (symbols : Symbols) (id : NodeId) :
    (unit.withSymbols symbols).ancestors id = unit.ancestors id :=
  unit.parentChain_withSymbols symbols unit.nodes.size (unit.parent? id)

end CompilationUnit
end MockAudit
