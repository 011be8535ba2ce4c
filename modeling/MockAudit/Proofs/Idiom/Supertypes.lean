import MockAudit.Idiom.Hierarchy
import MockAudit.Proofs.Idiom.Distance

namespace MockAudit.Symbols

open Relation (ReflTransGen)

variable {symbols : Symbols} {target type other : TypeId}

def Names (symbols : Symbols) (type other : TypeId) : Prop :=
  ∃ binding, symbols.type? type = some binding ∧ (binding.superclass = some other ∨ other ∈ binding.interfaces)

def HasSupertype (symbols : Symbols) (type other : TypeId) : Prop :=
  (symbols.type? type).isSome ∧ (symbols.Names type other ∨ symbols.Names (symbols.erasure type) other)

theorem HasSupertype.inRange (linked : symbols.HasSupertype type other) : type.toNat < symbols.types.size :=
  Ref.resolve_isSome.mp linked.1

theorem mem_listedSupertypes : other ∈ symbols.listedSupertypes type ↔ symbols.Names type other := by
  unfold listedSupertypes Names
  cases symbols.type? type <;> simp

theorem mem_supertypes : other ∈ symbols.supertypes type ↔ symbols.HasSupertype type other := by
  unfold supertypes HasSupertype
  split <;> simp_all [mem_listedSupertypes]

theorem mem_unseen {seen types : List TypeId} : type ∈ unseen seen types ↔ type ∈ types ∧ type ∉ seen := by
  induction types generalizing seen with
  | nil => simp [unseen]
  | cons head types ih =>
      rw [unseen]
      by_cases known : head ∈ seen
      · rw [if_pos known, ih, List.mem_cons]
        refine and_congr_left fun fresh => ?_
        have differs : type ≠ head := fun same => fresh (same ▸ known)
        simp [differs]
      · rw [if_neg known, List.mem_cons, ih, List.mem_cons, List.mem_cons]
        by_cases same : type = head
        · simp [same, known]
        · simp [same]

/-- The layer holds the types at one distance from the target, and those seen are no further away. -/
structure Layered (symbols : Symbols) (target : TypeId) (n : Nat) (layer seen : List TypeId) : Prop where
  mem_layer : ∀ {type}, type ∈ layer ↔ Distance symbols.HasSupertype target n type
  mem_seen : ∀ {type}, type ∈ seen ↔ ∃ m ≤ n, Distance symbols.HasSupertype target m type

theorem layered_start (symbols : Symbols) (target : TypeId) : symbols.Layered target 0 [target] [target] where
  mem_layer := by simp [distance_zero]
  mem_seen := by simp [distance_zero]

theorem Layered.up {n : Nat} {layer seen : List TypeId} (layered : symbols.Layered target n layer seen) :
    symbols.Layered target (n + 1) (unseen seen (layer.flatMap symbols.supertypes))
      (seen ++ unseen seen (layer.flatMap symbols.supertypes)) := by
  have mem_above {type : TypeId} : type ∈ unseen seen (layer.flatMap symbols.supertypes) ↔
      Distance symbols.HasSupertype target (n + 1) type := by
    simp only [mem_unseen, List.mem_flatMap, mem_supertypes, layered.mem_layer, layered.mem_seen, distance_succ]
  refine ⟨mem_above, fun {type} => ?_⟩
  rw [List.mem_append, layered.mem_seen, mem_above]
  constructor
  · rintro (⟨m, le, near⟩ | far)
    · exact ⟨m, by omega, near⟩
    · exact ⟨n + 1, by omega, far⟩
  · rintro ⟨m, le, distance⟩
    rcases Nat.lt_or_eq_of_le le with lt | rfl
    · exact .inl ⟨m, by omega, distance⟩
    · exact .inr distance

theorem layersFrom_nil (fuel : Nat) (seen : List TypeId) : symbols.layersFrom fuel [] seen = [] := by
  cases fuel <;> rfl

/-- The layers may as well go on after an empty one, which has only empty ones above it. -/
theorem layersFrom_succ (fuel : Nat) (layer seen : List TypeId) :
    symbols.layersFrom (fuel + 1) layer seen =
      layer ++ symbols.layersFrom fuel (unseen seen (layer.flatMap symbols.supertypes))
        (seen ++ unseen seen (layer.flatMap symbols.supertypes)) := by
  rw [layersFrom]
  split
  · rename_i empty
    rw [empty, layersFrom_nil, List.append_nil]
  · rfl

theorem Layered.mem_layersFrom {fuel n : Nat} {layer seen : List TypeId}
    (layered : symbols.Layered target n layer seen) (enough : symbols.types.size ≤ n + fuel) :
    type ∈ symbols.layersFrom fuel layer seen ↔ ∃ m ≥ n, Distance symbols.HasSupertype target m type := by
  induction fuel generalizing n layer seen with
  | zero =>
      rw [layersFrom, layered.mem_layer]
      constructor
      · intro distance
        exact ⟨n, Nat.le_refl n, distance⟩
      · rintro ⟨m, ge, distance⟩
        have le : m ≤ n := Nat.le_trans (distance.le_size HasSupertype.inRange) enough
        rwa [Nat.le_antisymm le ge] at distance
  | succ fuel ih =>
      rw [layersFrom_succ, List.mem_append, layered.mem_layer, ih layered.up (by omega)]
      constructor
      · rintro (near | ⟨m, ge, far⟩)
        · exact ⟨n, Nat.le_refl n, near⟩
        · exact ⟨m, by omega, far⟩
      · rintro ⟨m, ge, distance⟩
        rcases Nat.lt_or_eq_of_le ge with lt | rfl
        · exact .inr ⟨m, lt, distance⟩
        · exact .inl distance

def NoFurther (symbols : Symbols) (target first second : TypeId) : Prop :=
  ∀ m n, Distance symbols.HasSupertype target m first → Distance symbols.HasSupertype target n second → m ≤ n

theorem Layered.pairwise_layer {n : Nat} {layer seen : List TypeId} (layered : symbols.Layered target n layer seen) :
    layer.Pairwise (symbols.NoFurther target) := by
  apply List.pairwise_of_forall_mem_list
  intro first here second hereToo m k distance distanceToo
  rw [distance.unique (layered.mem_layer.mp here), distanceToo.unique (layered.mem_layer.mp hereToo)]

theorem Layered.pairwise_layersFrom {fuel n : Nat} {layer seen : List TypeId}
    (layered : symbols.Layered target n layer seen) (enough : symbols.types.size ≤ n + fuel) :
    (symbols.layersFrom fuel layer seen).Pairwise (symbols.NoFurther target) := by
  induction fuel generalizing n layer seen with
  | zero => exact layered.pairwise_layer
  | succ fuel ih =>
      have still : symbols.types.size ≤ n + 1 + fuel := by omega
      rw [layersFrom_succ, List.pairwise_append]
      refine ⟨layered.pairwise_layer, ih layered.up still, ?_⟩
      intro first here second above m k distance distanceToo
      obtain ⟨far, ge, isFar⟩ := (layered.up.mem_layersFrom still).mp above
      rw [distance.unique (layered.mem_layer.mp here), distanceToo.unique isFar]
      omega

theorem mem_hierarchy : type ∈ symbols.hierarchy target ↔ ReflTransGen symbols.HasSupertype target type := by
  rw [hierarchy, (layered_start symbols target).mem_layersFrom (Nat.le_add_left _ _), exists_distance]
  simp

theorem hierarchy_pairwise (symbols : Symbols) (target : TypeId) :
    (symbols.hierarchy target).Pairwise (symbols.NoFurther target) :=
  (layered_start symbols target).pairwise_layersFrom (Nat.le_add_left _ _)

end MockAudit.Symbols
