import MockAudit.Unit.Tree
import Mathlib.Algebra.Group.Nat.Defs
import Mathlib.Data.List.Induction
import Mathlib.Data.List.Nodup
import Mathlib.Data.List.Perm.Subperm
import Mathlib.Logic.Relation

namespace MockAudit

/-! ## References -/

namespace Ref

variable {table : Table}

theorem toNat_injective : Function.Injective (@toNat table) := by
  rintro ⟨a⟩ ⟨b⟩ same
  exact congrArg Ref.mk (UInt32.toNat_inj.mp same)

theorem toNat_lt (ref : Ref table) : ref.toNat < 2 ^ 32 := ref.index.toNat_lt

theorem toNat_ofNat {n : Nat} (small : n < 2 ^ 32) : (ofNat n : Ref table).toNat = n :=
  UInt32.toNat_ofNat_of_lt small

theorem ofNat_toNat (ref : Ref table) : ofNat ref.toNat = ref := by
  obtain ⟨index⟩ := ref
  simp [ofNat, toNat]

theorem resolve_isSome {α : Type} {ref : Ref table} {entries : Array α} :
    (ref.resolve entries).isSome ↔ ref.toNat < entries.size := by
  simp [resolve]

theorem resolve_setIfInBounds {α : Type} {ref other : Ref table} {entries : Array α} {value : α}
    (inRange : ref.toNat < entries.size) :
    other.resolve (entries.setIfInBounds ref.toNat value) =
      if other = ref then some value else other.resolve entries := by
  unfold resolve
  rw [Array.getElem?_setIfInBounds]
  by_cases same : other = ref
  · simp [same, inRange]
  · have different : ref.toNat ≠ other.toNat := fun equal => same (toNat_injective equal).symm
    simp [same, different]

theorem length_le_of_nodup {refs : List (Ref table)} {size : Nat} (distinct : refs.Nodup)
    (inRange : ∀ ref ∈ refs, ref.toNat < size) : refs.length ≤ size := by
  have positions : (refs.map toNat).Nodup := distinct.map toNat_injective
  have covered : refs.map toNat ⊆ List.range size := by
    intro position member
    obtain ⟨ref, own, rfl⟩ := List.mem_map.mp member
    exact List.mem_range.mpr (inRange ref own)
  simpa using (List.subperm_of_subset positions covered).length_le

end Ref

/-! ## Child lists -/

def Lists (nodes : Array Node) (parent child : NodeId) : Prop :=
  ∃ node, parent.resolve nodes = some node ∧ child ∈ node.children

abbrev Reaches (nodes : Array Node) : NodeId → NodeId → Prop := Relation.ReflTransGen (Lists nodes)

def listed (nodes : Array Node) : List NodeId := nodes.toList.flatMap (·.children)

def entriesFrom (index : Nat) (nodes : List Node) : List (NodeId × NodeId) :=
  (nodes.zipIdx index).flatMap fun (node, position) => node.children.map (Prod.mk (.ofNat position))

def entries (nodes : Array Node) : List (NodeId × NodeId) := entriesFrom 0 nodes.toList

structure Sound (size : Nat) (entries : List (NodeId × NodeId)) : Prop where
  inRange : ∀ entry ∈ entries, entry.2.toNat < size
  rootFree : ∀ entry ∈ entries, entry.2 ≠ rootId
  distinct : (entries.map Prod.snd).Nodup

theorem listed_eq_entries (nodes : Array Node) : listed nodes = (entries nodes).map Prod.snd := by
  have aligned (index : Nat) (rest : List Node) :
      rest.flatMap (·.children) = (entriesFrom index rest).map Prod.snd := by
    induction rest generalizing index with
    | nil => rfl
    | cons node rest ih =>
        simp only [entriesFrom, List.zipIdx_cons, List.flatMap_cons, List.map_append, List.map_map] at ih ⊢
        rw [ih (index + 1)]
        congr 1
        exact (List.map_id _).symm
  exact aligned 0 nodes.toList

theorem Lists.mem_entries {nodes : Array Node} {parent child : NodeId} (lists : Lists nodes parent child) :
    (parent, child) ∈ entries nodes := by
  obtain ⟨node, found, member⟩ := lists
  simp only [entries, entriesFrom, List.mem_flatMap, List.mem_map, Prod.mk.injEq, Prod.exists,
    List.mk_mem_zipIdx_iff_getElem?, Array.getElem?_toList]
  exact ⟨node, parent.toNat, found, child, member, parent.ofNat_toNat, rfl⟩

theorem mem_entries {nodes : Array Node} (bounded : nodes.size ≤ 2 ^ 32) {parent child : NodeId} :
    (parent, child) ∈ entries nodes ↔ Lists nodes parent child := by
  refine ⟨fun member => ?_, Lists.mem_entries⟩
  simp only [entries, entriesFrom, List.mem_flatMap, List.mem_map, Prod.mk.injEq, Prod.exists,
    List.mk_mem_zipIdx_iff_getElem?, Array.getElem?_toList] at member
  obtain ⟨node, position, found, child, member, rfl, rfl⟩ := member
  have inside : position < nodes.size := (Array.getElem?_eq_some_iff.mp found).1
  exact ⟨node, by rwa [Ref.resolve, Ref.toNat_ofNat (by omega)], member⟩

structure Linked (nodes : Array Node) : Prop where
  inRange : ∀ {parent child : NodeId}, Lists nodes parent child → child.toNat < nodes.size
  rootFree : ∀ {parent : NodeId}, ¬ Lists nodes parent rootId
  unique : ∀ {parent other child : NodeId}, Lists nodes parent child → Lists nodes other child → parent = other
  distinct : ∀ {id : NodeId} {node : Node}, id.resolve nodes = some node → node.children.Nodup

theorem Sound.linked {nodes : Array Node} (sound : Sound nodes.size (entries nodes)) : Linked nodes where
  inRange lists := sound.inRange _ lists.mem_entries
  rootFree lists := sound.rootFree _ lists.mem_entries rfl
  unique {parent other child} lists again := by
    have same := List.inj_on_of_nodup_map sound.distinct lists.mem_entries again.mem_entries rfl
    exact congrArg Prod.fst same
  distinct {id node} found := by
    have distinct := sound.distinct
    rw [← listed_eq_entries, listed, List.nodup_flatMap] at distinct
    exact distinct.1 node (Array.mem_toList_iff.mpr (Array.mem_of_getElem? found))

theorem Sound.of_append {size : Nat} {before after : List (NodeId × NodeId)}
    (sound : Sound size (before ++ after)) : Sound size before where
  inRange entry member := sound.inRange entry (List.mem_append_left _ member)
  rootFree entry member := sound.rootFree entry (List.mem_append_left _ member)
  distinct := by
    have distinct := sound.distinct
    rw [List.map_append] at distinct
    exact (List.nodup_append.mp distinct).1

theorem sound_nil (size : Nat) : Sound size [] := by constructor <;> simp

theorem sound_concat {size : Nat} {before : List (NodeId × NodeId)} {parent child : NodeId} :
    Sound size (before ++ [(parent, child)]) ↔
      Sound size before ∧ child.toNat < size ∧ child ≠ rootId ∧ child ∉ before.map Prod.snd := by
  constructor
  · intro sound
    have last : (parent, child) ∈ before ++ [(parent, child)] := by simp
    have distinct := sound.distinct
    rw [List.map_append] at distinct
    refine ⟨sound.of_append, sound.inRange _ last, sound.rootFree _ last, fun earlier => ?_⟩
    exact (List.nodup_append.mp distinct).2.2 child earlier child (by simp) rfl
  · rintro ⟨sound, inside, notRoot, fresh⟩
    constructor
    · intro entry member
      rcases List.mem_append.mp member with old | new
      · exact sound.inRange entry old
      · rwa [List.mem_singleton.mp new]
    · intro entry member
      rcases List.mem_append.mp member with old | new
      · exact sound.rootFree entry old
      · rwa [List.mem_singleton.mp new]
    · rw [List.map_append]
      refine List.nodup_append.mpr ⟨sound.distinct, by simp, fun a old b new equal => fresh ?_⟩
      have last : b = child := by simpa using new
      rwa [← last, ← equal]

theorem sound_or_split (size : Nat) (entries : List (NodeId × NodeId)) :
    Sound size entries ∨ ∃ before parent child after, entries = before ++ (parent, child) :: after ∧
      Sound size before ∧ ¬ Sound size (before ++ [(parent, child)]) := by
  -- The first wrong entry is found from the end: either the list without its last entry has one, or that entry is it.
  induction entries using List.reverseRecOn with
  | nil => exact .inl (sound_nil size)
  | append_singleton before last ih =>
      obtain ⟨parent, child⟩ := last
      rcases ih with sound | ⟨earlier, parent', child', after, split, sound, broken⟩
      · by_cases all : Sound size (before ++ [(parent, child)])
        · exact .inl all
        · exact .inr ⟨before, parent, child, [], rfl, sound, all⟩
      · exact .inr ⟨earlier, parent', child', after ++ [(parent, child)], by simp [split], sound, broken⟩

/-! ## The loop over child lists -/

def enterEntries : List (NodeId × NodeId) → ParentIndex → Except Defect ParentIndex
  | [], parents => .ok parents
  | (parent, child) :: rest, parents =>
      match child.resolve parents with
      | none => .error (.missingChild parent child)
      | some earlier =>
          if child = rootId ∨ earlier.isSome then .error (.sharedChild child)
          else enterEntries rest (parents.setIfInBounds child.toNat (some parent))

theorem enterEntries_children (parent : NodeId) (children : List NodeId) (rest : List (NodeId × NodeId))
    (parents : ParentIndex) :
    enterEntries (children.map (Prod.mk parent) ++ rest) parents =
      match enterChildren parent children parents with
      | .error defect => .error defect
      | .ok entered => enterEntries rest entered := by
  induction children generalizing parents with
  | nil => rfl
  | cons child children ih =>
      simp only [List.map_cons, List.cons_append, enterEntries, enterChildren]
      cases child.resolve parents with
      | none => rfl
      | some earlier =>
          by_cases shared : child = rootId ∨ earlier.isSome
          · simp [shared]
          · simp [shared, ih]

theorem enterNodes_eq (index : Nat) (nodes : List Node) (parents : ParentIndex) :
    enterNodes index nodes parents = enterEntries (entriesFrom index nodes) parents := by
  induction nodes generalizing index parents with
  | nil => rfl
  | cons node rest ih =>
      have split : entriesFrom index (node :: rest) =
          node.children.map (Prod.mk (.ofNat index)) ++ entriesFrom (index + 1) rest := by
        simp [entriesFrom, List.zipIdx_cons]
      rw [split, enterEntries_children, enterNodes]
      cases enterChildren (.ofNat index) node.children parents with
      | error defect => rfl
      | ok entered => exact ih (index + 1) entered

/-- What the loop knows after some entries: they are sound, and each of them has been entered. -/
structure Recorded (size : Nat) (done : List (NodeId × NodeId)) (parents : ParentIndex) : Prop where
  size_eq : parents.size = size
  sound : Sound size done
  entered : ∀ child parent : NodeId, child.resolve parents = some (some parent) ↔ (parent, child) ∈ done

theorem recorded_start (size : Nat) : Recorded size [] (Array.replicate size none) where
  size_eq := by simp
  sound := sound_nil size
  entered child parent := by simp [Ref.resolve, Array.getElem?_replicate]

theorem Recorded.listed_iff {size : Nat} {done : List (NodeId × NodeId)} {parents : ParentIndex}
    (recorded : Recorded size done parents) (child : NodeId) :
    child ∈ done.map Prod.snd ↔ ∃ parent, child.resolve parents = some (some parent) := by
  simp [recorded.entered]

theorem Recorded.resolve_fresh {size : Nat} {done : List (NodeId × NodeId)} {parents : ParentIndex}
    (recorded : Recorded size done parents) {child : NodeId} (inside : child.toNat < size)
    (fresh : child ∉ done.map Prod.snd) : child.resolve parents = some none := by
  obtain ⟨earlier, found⟩ := Option.isSome_iff_exists.mp
    (Ref.resolve_isSome.mpr (recorded.size_eq ▸ inside : child.toNat < parents.size))
  cases earlier with
  | none => exact found
  | some parent => exact absurd ((recorded.listed_iff child).mpr ⟨parent, found⟩) fresh

theorem Recorded.enter {size : Nat} {done : List (NodeId × NodeId)} {parents : ParentIndex}
    (recorded : Recorded size done parents) {parent child : NodeId}
    (sound : Sound size (done ++ [(parent, child)])) :
    Recorded size (done ++ [(parent, child)]) (parents.setIfInBounds child.toNat (some parent)) where
  size_eq := by simp [recorded.size_eq]
  sound := sound
  entered := by
    obtain ⟨-, inside, -, fresh⟩ := sound_concat.mp sound
    intro other above
    rw [Ref.resolve_setIfInBounds (recorded.size_eq ▸ inside)]
    by_cases same : other = child
    · subst same
      have unlisted : (above, other) ∉ done := fun old => fresh (List.mem_map.mpr ⟨_, old, rfl⟩)
      simp [unlisted, eq_comm]
    · simp [same, recorded.entered]

theorem enterEntries_sound {size : Nat} {done rest : List (NodeId × NodeId)} {parents : ParentIndex}
    (recorded : Recorded size done parents) (sound : Sound size (done ++ rest)) :
    ∃ entered, Recorded size (done ++ rest) entered ∧
      ∀ more, enterEntries (rest ++ more) parents = enterEntries more entered := by
  induction rest generalizing done parents with
  | nil => exact ⟨parents, by simpa using recorded, fun more => rfl⟩
  | cons entry rest ih =>
      obtain ⟨parent, child⟩ := entry
      have whole : Sound size ((done ++ [(parent, child)]) ++ rest) := by simpa using sound
      obtain ⟨-, inside, notRoot, fresh⟩ := sound_concat.mp whole.of_append
      have found := recorded.resolve_fresh inside fresh
      obtain ⟨entered, known, continues⟩ := ih (recorded.enter whole.of_append) whole
      refine ⟨entered, by simpa using known, fun more => ?_⟩
      simp [enterEntries, found, notRoot, continues]

theorem Recorded.sound_of_free {size : Nat} {done : List (NodeId × NodeId)} {parents : ParentIndex}
    (recorded : Recorded size done parents) {parent child : NodeId} {earlier : Option NodeId}
    (found : child.resolve parents = some earlier) (free : ¬ (child = rootId ∨ earlier.isSome)) :
    Sound size (done ++ [(parent, child)]) := by
  push Not at free
  refine sound_concat.mpr ⟨recorded.sound, ?_, free.1, fun again => ?_⟩
  · rw [← recorded.size_eq, ← Ref.resolve_isSome, found, Option.isSome_some]
  · obtain ⟨owner, known⟩ := (recorded.listed_iff child).mp again
    rw [found, Option.some.injEq] at known
    simp [known] at free

theorem Recorded.of_enterEntries {size : Nat} {done rest : List (NodeId × NodeId)} {parents final : ParentIndex}
    (recorded : Recorded size done parents) (entered : enterEntries rest parents = .ok final) :
    Recorded size (done ++ rest) final := by
  induction rest generalizing done parents with
  | nil =>
      obtain rfl : parents = final := by simpa [enterEntries] using entered
      simpa using recorded
  | cons entry rest ih =>
      obtain ⟨parent, child⟩ := entry
      rw [enterEntries] at entered
      cases found : child.resolve parents with
      | none => simp [found] at entered
      | some earlier =>
          rw [found] at entered
          by_cases free : child = rootId ∨ earlier.isSome
          · simp [free] at entered
          · simpa using ih (recorded.enter (recorded.sound_of_free found free)) (by simpa [free] using entered)

theorem sound_of_enterNodes {nodes : Array Node} {parents : ParentIndex}
    (entered : enterNodes 0 nodes.toList (Array.replicate nodes.size none) = .ok parents) :
    Sound nodes.size (entries nodes) := by
  rw [enterNodes_eq, ← entries] at entered
  exact ((recorded_start nodes.size).of_enterEntries entered).sound

end MockAudit
