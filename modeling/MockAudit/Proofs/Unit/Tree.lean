import MockAudit.Proofs.Unit.Exploration
import Mathlib.Data.Nat.Find

namespace MockAudit

structure IsTree (nodes : Array Node) : Prop where
  nonempty : 0 < nodes.size
  inRange : ∀ child ∈ listed nodes, child.toNat < nodes.size
  rootFree : rootId ∉ listed nodes
  once : ∀ id : NodeId, id.toNat < nodes.size → id ≠ rootId → (listed nodes).count id = 1
  reached : ∀ id : NodeId, id.toNat < nodes.size → Reaches nodes rootId id

inductive FirstDefect (nodes : Array Node) : Defect → Prop where
  | noNodes (empty : nodes.size = 0) : FirstDefect nodes .noNodes
  | missingChild {before after : List (NodeId × NodeId)} {parent child : NodeId}
      (split : entries nodes = before ++ (parent, child) :: after) (sound : Sound nodes.size before)
      (outside : nodes.size ≤ child.toNat) : FirstDefect nodes (.missingChild parent child)
  | sharedChild {before after : List (NodeId × NodeId)} {parent child : NodeId}
      (split : entries nodes = before ++ (parent, child) :: after) (sound : Sound nodes.size before)
      (inside : child.toNat < nodes.size) (shared : child = rootId ∨ child ∈ before.map Prod.snd) :
      FirstDefect nodes (.sharedChild child)
  | unreachable {id : NodeId} (sound : Sound nodes.size (entries nodes)) (inside : id.toNat < nodes.size)
      (cutOff : ¬ Reaches nodes rootId id)
      (first : ∀ other : NodeId, other.toNat < id.toNat → Reaches nodes rootId other) :
      FirstDefect nodes (.unreachable id)

theorem parentIndex_of_sound {nodes : Array Node} (nonempty : 0 < nodes.size)
    (sound : Sound nodes.size (entries nodes)) :
    ∃ parents, Recorded nodes.size (entries nodes) parents ∧
      parentIndex nodes =
        match (marks nodes).findIdx? (!·) with
        | some index => .error (.unreachable (.ofNat index))
        | none => .ok parents := by
  have whole : Sound nodes.size ([] ++ entries nodes) := sound
  obtain ⟨parents, recorded, entered⟩ := enterEntries_sound (recorded_start nodes.size) whole
  refine ⟨parents, recorded, ?_⟩
  have result : enterNodes 0 nodes.toList (Array.replicate nodes.size none) = .ok parents := by
    rw [enterNodes_eq, ← entries, ← List.append_nil (entries nodes), entered, enterEntries]
  have filled : ¬ nodes.isEmpty := by simpa using Nat.ne_of_gt nonempty
  simp only [parentIndex, filled, result, marks]
  rfl

theorem parentIndex_of_split {nodes : Array Node} {before after : List (NodeId × NodeId)}
    {parent child : NodeId} (split : entries nodes = before ++ (parent, child) :: after)
    (sound : Sound nodes.size before) :
    ∃ parents, Recorded nodes.size before parents ∧ ∀ defect,
      enterEntries ((parent, child) :: after) parents = .error defect → parentIndex nodes = .error defect := by
  obtain ⟨parents, recorded, entered⟩ := enterEntries_sound (recorded_start nodes.size) sound
  refine ⟨parents, recorded, fun defect stops => ?_⟩
  have result : enterNodes 0 nodes.toList (Array.replicate nodes.size none) = .error defect := by
    rw [enterNodes_eq, ← entries, split, entered, stops]
  have filled : ¬ nodes.isEmpty := by
    intro empty
    obtain rfl : nodes = #[] := by simpa using empty
    simp [entries, entriesFrom] at split
  simp [parentIndex, filled, result]

theorem parentIndex_of_firstDefect {nodes : Array Node} (bounded : nodes.size ≤ 2 ^ 32) {defect : Defect}
    (first : FirstDefect nodes defect) : parentIndex nodes = .error defect := by
  cases first with
  | noNodes empty => simp [parentIndex, Array.eq_empty_of_size_eq_zero empty]
  | @missingChild before after parent child split sound outside =>
      obtain ⟨parents, recorded, stops⟩ := parentIndex_of_split split sound
      have missing : child.resolve parents = none := by
        rw [← Option.not_isSome_iff_eq_none, Ref.resolve_isSome, recorded.size_eq]
        omega
      exact stops _ (by simp [enterEntries, missing])
  | @sharedChild before after parent child split sound inside shared =>
      obtain ⟨parents, recorded, stops⟩ := parentIndex_of_split split sound
      obtain ⟨earlier, found⟩ := Option.isSome_iff_exists.mp
        (Ref.resolve_isSome.mpr (recorded.size_eq ▸ inside : child.toNat < parents.size))
      have taken : child = rootId ∨ earlier.isSome := by
        rcases shared with isRoot | twice
        · exact .inl isRoot
        · obtain ⟨owner, entered⟩ := (recorded.listed_iff child).mp twice
          rw [found, Option.some.injEq] at entered
          simp [entered]
      exact stops _ (by simp [enterEntries, found, taken])
  | @unreachable id sound inside cutOff first =>
      have nonempty : 0 < nodes.size := by omega
      have linked := sound.linked
      obtain ⟨parents, -, result⟩ := parentIndex_of_sound nonempty sound
      have unmarked : (marks nodes).findIdx? (!·) = some id.toNat := by
        rw [Array.findIdx?_eq_some_iff_getElem]
        refine ⟨marks_size nodes ▸ inside, ?_, ?_⟩
        · rw [Bool.not_eq_true', ← Bool.not_eq_true, marks_getElem bounded linked nonempty, Ref.ofNat_toNat]
          exact cutOff
        · intro index below
          have small : index < 2 ^ 32 := by omega
          rw [Bool.not_eq_true', Bool.not_eq_false, marks_getElem bounded linked nonempty]
          exact first _ (by rwa [Ref.toNat_ofNat small])
      simp [result, unmarked, Ref.ofNat_toNat]

theorem IsTree.sound {nodes : Array Node} (tree : IsTree nodes) : Sound nodes.size (entries nodes) where
  inRange entry member := tree.inRange _ (listed_eq_entries nodes ▸ List.mem_map_of_mem member)
  rootFree entry member isRoot :=
    tree.rootFree (listed_eq_entries nodes ▸ isRoot ▸ List.mem_map_of_mem member)
  distinct := by
    rw [← listed_eq_entries, List.nodup_iff_count_le_one]
    intro id
    by_cases member : id ∈ listed nodes
    · have notRoot : id ≠ rootId := fun isRoot => tree.rootFree (isRoot ▸ member)
      exact Nat.le_of_eq (tree.once id (tree.inRange id member) notRoot)
    · simp [List.count_eq_zero_of_not_mem member]

theorem Sound.isTree {nodes : Array Node} (nonempty : 0 < nodes.size) (sound : Sound nodes.size (entries nodes))
    (reached : ∀ id : NodeId, id.toNat < nodes.size → Reaches nodes rootId id) : IsTree nodes where
  nonempty := nonempty
  inRange child member := by
    rw [listed_eq_entries] at member
    obtain ⟨entry, entered, rfl⟩ := List.mem_map.mp member
    exact sound.inRange entry entered
  rootFree member := by
    rw [listed_eq_entries] at member
    obtain ⟨entry, entered, isRoot⟩ := List.mem_map.mp member
    exact sound.rootFree entry entered isRoot
  once id inside notRoot := by
    -- The last step of a path from the root is an entry for the node.
    rcases (reached id inside).cases_tail with isRoot | ⟨parent, -, lists⟩
    · exact absurd isRoot notRoot
    · rw [listed_eq_entries]
      exact List.count_eq_one_of_mem sound.distinct
        (List.mem_map.mpr ⟨_, lists.mem_entries, rfl⟩)
  reached := reached

theorem parentIndex_of_isTree {nodes : Array Node} (bounded : nodes.size ≤ 2 ^ 32) (tree : IsTree nodes) :
    ∃ parents, parentIndex nodes = .ok parents ∧ Recorded nodes.size (entries nodes) parents := by
  obtain ⟨parents, recorded, result⟩ := parentIndex_of_sound tree.nonempty tree.sound
  have allMarked : (marks nodes).findIdx? (!·) = none := by
    rw [Array.findIdx?_eq_none_iff]
    intro mark member
    obtain ⟨index, inside, rfl⟩ := Array.mem_iff_getElem.mp member
    rw [Bool.not_eq_false', marks_getElem bounded tree.sound.linked tree.nonempty]
    rw [marks_size] at inside
    exact tree.reached _ (by rwa [Ref.toNat_ofNat (by omega)])
  exact ⟨parents, by simp [result, allMarked], recorded⟩

theorem isTree_or_firstDefect {nodes : Array Node} (bounded : nodes.size ≤ 2 ^ 32) :
    IsTree nodes ∨ ∃ defect, FirstDefect nodes defect := by
  rcases Nat.eq_zero_or_pos nodes.size with empty | nonempty
  · exact .inr ⟨_, .noNodes empty⟩
  rcases sound_or_split nodes.size (entries nodes) with
    sound | ⟨before, parent, child, after, split, sound, broken⟩
  · by_cases reached : ∀ id : NodeId, id.toNat < nodes.size → Reaches nodes rootId id
    · exact .inl (sound.isTree nonempty reached)
    · have cutOff : ∃ index, index < nodes.size ∧ ¬ Reaches nodes rootId (.ofNat index) := by
        push Not at reached
        obtain ⟨id, inside, unreached⟩ := reached
        exact ⟨id.toNat, inside, by rwa [Ref.ofNat_toNat]⟩
      classical
      obtain ⟨inside, unreached⟩ := Nat.find_spec cutOff
      have position : (.ofNat (Nat.find cutOff) : NodeId).toNat = Nat.find cutOff :=
        Ref.toNat_ofNat (by omega)
      refine .inr ⟨_, .unreachable sound (position.symm ▸ inside) unreached ?_⟩
      intro other below
      by_contra unreachedToo
      rw [position] at below
      exact Nat.find_min cutOff below ⟨by omega, by rwa [Ref.ofNat_toNat]⟩
  · by_cases inside : child.toNat < nodes.size
    · refine .inr ⟨_, .sharedChild split sound inside ?_⟩
      by_contra fresh
      push Not at fresh
      exact broken (sound_concat.mpr ⟨sound, inside, fresh.1, fresh.2⟩)
    · exact .inr ⟨_, .missingChild split sound (by omega)⟩

/-- Validation accepts exactly the trees, gives each node the parent that lists it, and otherwise reports the
first defect. -/
theorem parentIndex_decides_tree (nodes : Array Node) (bounded : nodes.size ≤ 2 ^ 32) :
    ((∃ parents, parentIndex nodes = .ok parents) ↔ IsTree nodes) ∧
    (∀ parents, parentIndex nodes = .ok parents →
      parents.size = nodes.size ∧ rootId.resolve parents = some none ∧
      ∀ child parent : NodeId, child.resolve parents = some (some parent) ↔ Lists nodes parent child) ∧
    (∀ defect, parentIndex nodes = .error defect ↔ FirstDefect nodes defect) := by
  rcases isTree_or_firstDefect bounded with tree | ⟨defect, first⟩
  · obtain ⟨parents, accepted, recorded⟩ := parentIndex_of_isTree bounded tree
    refine ⟨⟨fun _ => tree, fun _ => ⟨parents, accepted⟩⟩, ?_, ?_⟩
    · intro given isGiven
      obtain rfl : parents = given := by simpa [accepted] using isGiven
      refine ⟨recorded.size_eq, ?_, ?_⟩
      · exact recorded.resolve_fresh tree.nonempty (listed_eq_entries nodes ▸ tree.rootFree)
      · intro child parent
        rw [recorded.entered, mem_entries bounded]
    · intro defect
      refine ⟨fun rejected => ?_, fun first => ?_⟩
      · simp [accepted] at rejected
      · simpa [accepted] using parentIndex_of_firstDefect bounded first
  · have rejected := parentIndex_of_firstDefect bounded first
    refine ⟨⟨?_, ?_⟩, ?_, ?_⟩
    · rintro ⟨parents, accepted⟩
      simp [rejected] at accepted
    · intro tree
      obtain ⟨parents, accepted, -⟩ := parentIndex_of_isTree bounded tree
      simp [rejected] at accepted
    · intro parents accepted
      simp [rejected] at accepted
    · intro other
      refine ⟨fun same => ?_, parentIndex_of_firstDefect bounded⟩
      obtain rfl : defect = other := by simpa [rejected] using same
      exact first

theorem parentIndex_decides_chain_and_cycle :
    IsTree #[⟨.compilationUnit, ⟨0, 9⟩, [⟨2⟩]⟩, ⟨.block, ⟨4, 1⟩, []⟩, ⟨.block, ⟨2, 5⟩, [⟨1⟩]⟩] ∧
    FirstDefect #[⟨.compilationUnit, ⟨0, 9⟩, [⟨1⟩]⟩, ⟨.block, ⟨4, 1⟩, []⟩, ⟨.block, ⟨2, 5⟩, [⟨3⟩]⟩,
      ⟨.block, ⟨2, 5⟩, [⟨2⟩]⟩] (.unreachable ⟨2⟩) :=
  ⟨(parentIndex_decides_tree _ (by decide)).1.mp ⟨#[none, some ⟨2⟩, some ⟨0⟩], by cbv⟩,
    ((parentIndex_decides_tree _ (by decide)).2.2 _).mp (by cbv)⟩

end MockAudit
