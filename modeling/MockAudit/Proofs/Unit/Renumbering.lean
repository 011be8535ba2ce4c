import MockAudit.Proofs.Unit.Ancestry

namespace MockAudit

open Relation (TransGen ReflTransGen)

structure Renumbering where
  ref : {table : Table} → Equiv.Perm (Ref table)

namespace Renumbering

variable (ρ : Renumbering)

/-! ## What a renumbering acts on -/

def target : NameTarget → NameTarget
  | .var id => .var (ρ.ref id)
  | .type id => .type (ρ.ref id)
  | .method id => .method (ρ.ref id)

def kind : NodeKind → NodeKind
  | .compilationUnit => .compilationUnit
  | .importDecl name onDemand => .importDecl name onDemand
  | .typeDecl name type => .typeDecl (ρ.ref name) (type.map ρ.ref)
  | .anonymousClass type => .anonymousClass (type.map ρ.ref)
  | .creation typeNode type => .creation (ρ.ref typeNode) (type.map ρ.ref)
  | .methodDecl name method => .methodDecl (ρ.ref name) (method.map ρ.ref)
  | .fieldDecl => .fieldDecl
  | .call name receiver method result =>
      .call (ρ.ref name) (receiver.map ρ.ref) (method.map ρ.ref) (result.map ρ.ref)
  | .simpleName identifier target => .simpleName identifier (target.map ρ.target)
  | .typeRef type => .typeRef (type.map ρ.ref)
  | .expressionStatement => .expressionStatement
  | .block => .block
  | .other => .other

def node (node : Node) : Node :=
  { node with kind := ρ.kind node.kind, children := node.children.map ρ.ref }

def type (type : TypeBinding) : TypeBinding :=
  { type with
    superclass := type.superclass.map ρ.ref
    interfaces := type.interfaces.map ρ.ref
    typeArguments := type.typeArguments.map ρ.ref
    erasure := type.erasure.map ρ.ref
    methods := type.methods.map ρ.ref }

def method (method : MethodBinding) : MethodBinding :=
  { method with
    declaringType := ρ.ref method.declaringType
    parameters := method.parameters.map ρ.ref
    returnType := method.returnType.map ρ.ref }

def field (field : FieldBinding) : FieldBinding :=
  { field with
    declaringType := field.declaringType.map ρ.ref
    declaredType := field.declaredType.map ρ.ref }

/-- The table in which the image of a reference stands for what the reference stood for. No reference leads to
a position from 2³² on, so entries there keep their place. -/
def permute (table : Table) {α : Type} (entries : Array α) : Array α :=
  entries.mapIdx fun position entry =>
    if position < 2 ^ 32 then
      (((ρ.ref : Equiv.Perm (Ref table)).symm (.ofNat position)).resolve entries).getD entry
    else entry

def symbols (symbols : Symbols) : Symbols where
  types := (ρ.permute .type symbols.types).map ρ.type
  methods := (ρ.permute .method symbols.methods).map ρ.method
  fields := (ρ.permute .field symbols.fields).map ρ.field

def Keeps (table : Table) (size : Nat) : Prop :=
  ∀ ref : Ref table, (ρ.ref ref).toNat < size ↔ ref.toNat < size

structure Fits (draft : Draft) : Prop where
  root : ρ.ref rootId = rootId
  nodes : ρ.Keeps .node draft.nodes.size
  types : ρ.Keeps .type draft.symbols.types.size
  methods : ρ.Keeps .method draft.symbols.methods.size
  fields : ρ.Keeps .field draft.symbols.fields.size

def identity : Renumbering := ⟨Equiv.refl _⟩

end Renumbering

def Draft.renumber (ρ : Renumbering) (draft : Draft) : Draft :=
  { draft with
    nodes := (ρ.permute .node draft.nodes).map ρ.node
    symbols := ρ.symbols draft.symbols }

namespace Renumbering

variable {ρ : Renumbering}

@[simp] theorem identity_ref {table : Table} : ⇑(identity.ref : Equiv.Perm (Ref table)) = id := rfl

@[simp] theorem identity_target : identity.target = id := by
  funext target
  cases target <;> rfl

@[simp] theorem identity_kind : identity.kind = id := by
  funext kind
  cases kind <;> simp [Renumbering.kind]

@[simp] theorem identity_node : identity.node = id := by
  funext node
  simp [Renumbering.node]

@[simp] theorem identity_type : identity.type = id := by
  funext type
  simp [Renumbering.type]

@[simp] theorem identity_method : identity.method = id := by
  funext method
  simp [Renumbering.method]

@[simp] theorem identity_field : identity.field = id := by
  funext field
  simp [Renumbering.field]

@[simp] theorem kind_trigger? (kind : NodeKind) : (ρ.kind kind).trigger? = kind.trigger? := by
  cases kind <;> rfl

@[simp] theorem kind_isTypeBody (kind : NodeKind) : (ρ.kind kind).isTypeBody = kind.isTypeBody := by
  cases kind <;> rfl

@[simp] theorem kind_isTypeDecl (kind : NodeKind) : (ρ.kind kind).isTypeDecl = kind.isTypeDecl := by
  cases kind <;> rfl

@[simp] theorem kind_bodyType? (kind : NodeKind) : (ρ.kind kind).bodyType? = kind.bodyType?.map ρ.ref := by
  cases kind <;> rfl

/-! ## Moved tables -/

@[simp] theorem size_permute (table : Table) {α : Type} (entries : Array α) :
    (ρ.permute table entries).size = entries.size := by
  simp [permute]

theorem resolve_permute {table : Table} {α : Type} {entries : Array α} (keeps : ρ.Keeps table entries.size)
    (ref : Ref table) : (ρ.ref ref).resolve (ρ.permute table entries) = ref.resolve entries := by
  have moved : (ρ.ref ref).resolve (ρ.permute table entries) =
      ((ρ.ref ref).resolve entries).map fun entry => (ref.resolve entries).getD entry := by
    simp only [Ref.resolve, permute, Array.getElem?_mapIdx, if_pos (ρ.ref ref).toNat_lt, Ref.ofNat_toNat,
      Equiv.symm_apply_apply]
  rw [moved]
  by_cases inside : ref.toNat < entries.size
  · obtain ⟨entry, found⟩ := Option.isSome_iff_exists.mp (Ref.resolve_isSome.mpr inside)
    obtain ⟨other, foundToo⟩ := Option.isSome_iff_exists.mp (Ref.resolve_isSome.mpr ((keeps ref).mpr inside))
    simp [found, foundToo]
  · have outside := (keeps ref).not.mpr inside
    rw [← Ref.resolve_isSome, Option.not_isSome_iff_eq_none] at inside outside
    simp [inside, outside]

theorem resolve_map_permute {table : Table} {α : Type} {entries : Array α} (f : α → α)
    (keeps : ρ.Keeps table entries.size) (ref : Ref table) :
    (ρ.ref ref).resolve ((ρ.permute table entries).map f) = (ref.resolve entries).map f := by
  rw [← resolve_permute keeps ref]
  simp [Ref.resolve]

end Renumbering

structure Symbols.Renumbered (ρ : Renumbering) (symbols other : Symbols) : Prop where
  size : other.types.size = symbols.types.size
  type? : ∀ id, other.type? (ρ.ref id) = (symbols.type? id).map ρ.type
  method? : ∀ id, other.method? (ρ.ref id) = (symbols.method? id).map ρ.method
  field? : ∀ id, other.field? (ρ.ref id) = (symbols.field? id).map ρ.field

theorem Symbols.renumbered_self (symbols : Symbols) : symbols.Renumbered .identity symbols where
  size := rfl
  type? id := by simp
  method? id := by simp
  field? id := by simp

theorem Renumbering.Fits.symbols {ρ : Renumbering} {draft : Draft} (fits : ρ.Fits draft) :
    draft.symbols.Renumbered ρ (ρ.symbols draft.symbols) where
  size := by simp [Renumbering.symbols]
  type? := Renumbering.resolve_map_permute ρ.type fits.types
  method? := Renumbering.resolve_map_permute ρ.method fits.methods
  field? := Renumbering.resolve_map_permute ρ.field fits.fields

/-! ## Renumbered trees -/

theorem Linked.sound {nodes : Array Node} (bounded : nodes.size ≤ 2 ^ 32) (linked : Linked nodes) :
    Sound nodes.size (entries nodes) where
  inRange entry member := linked.inRange ((mem_entries bounded).mp member)
  rootFree entry member isRoot := linked.rootFree (isRoot ▸ (mem_entries bounded).mp member)
  distinct := by
    have resolves {position : Nat} (inside : position < nodes.toList.length) :
        (.ofNat position : NodeId).resolve nodes = some nodes.toList[position] := by
      rw [Array.length_toList] at inside
      rw [Ref.resolve, Ref.toNat_ofNat (by omega)]
      simp [inside]
    rw [← listed_eq_entries, listed, List.nodup_flatMap]
    constructor
    · intro node member
      obtain ⟨position, inside, rfl⟩ := List.mem_iff_getElem.mp member
      exact linked.distinct (resolves inside)
    · rw [List.pairwise_iff_getElem]
      intro first second insideFirst insideSecond below child inFirst inSecond
      have same := linked.unique ⟨_, resolves insideFirst, inFirst⟩ ⟨_, resolves insideSecond, inSecond⟩
      rw [Array.length_toList] at insideFirst insideSecond
      have positions := congrArg Ref.toNat same
      rw [Ref.toNat_ofNat (by omega), Ref.toNat_ofNat (by omega)] at positions
      omega

structure RenumberedNodes (ρ : Renumbering) (nodes other : Array Node) : Prop where
  root : ρ.ref rootId = rootId
  size : other.size = nodes.size
  resolve : ∀ id : NodeId, (ρ.ref id).resolve other = (id.resolve nodes).map ρ.node

namespace RenumberedNodes

variable {ρ : Renumbering} {nodes other : Array Node}

theorem inRange (same : RenumberedNodes ρ nodes other) (id : NodeId) :
    (ρ.ref id).toNat < other.size ↔ id.toNat < nodes.size := by
  rw [← Ref.resolve_isSome, ← Ref.resolve_isSome, same.resolve, Option.isSome_map]

theorem lists_iff (same : RenumberedNodes ρ nodes other) {parent child : NodeId} :
    Lists other (ρ.ref parent) (ρ.ref child) ↔ Lists nodes parent child := by
  unfold Lists
  rw [same.resolve]
  cases parent.resolve nodes with
  | none => simp
  | some node => simp [Renumbering.node]

theorem linked (same : RenumberedNodes ρ nodes other) (linked : Linked nodes) : Linked other where
  inRange {parent child} lists := by
    obtain ⟨parent, rfl⟩ := ρ.ref.surjective parent
    obtain ⟨child, rfl⟩ := ρ.ref.surjective child
    exact (same.inRange child).mpr (linked.inRange (same.lists_iff.mp lists))
  rootFree {parent} lists := by
    obtain ⟨parent, rfl⟩ := ρ.ref.surjective parent
    rw [← same.root] at lists
    exact linked.rootFree (same.lists_iff.mp lists)
  unique {parent another child} lists again := by
    obtain ⟨parent, rfl⟩ := ρ.ref.surjective parent
    obtain ⟨another, rfl⟩ := ρ.ref.surjective another
    obtain ⟨child, rfl⟩ := ρ.ref.surjective child
    exact congrArg ρ.ref (linked.unique (same.lists_iff.mp lists) (same.lists_iff.mp again))
  distinct {id node} found := by
    obtain ⟨id, rfl⟩ := ρ.ref.surjective id
    rw [same.resolve] at found
    obtain ⟨original, isOriginal, rfl⟩ := Option.map_eq_some_iff.mp found
    exact (linked.distinct isOriginal).map ρ.ref.injective

theorem isTree (same : RenumberedNodes ρ nodes other) (bounded : nodes.size ≤ 2 ^ 32) (tree : IsTree nodes) :
    IsTree other := by
  have fewEnough : other.size ≤ 2 ^ 32 := by rw [same.size]; exact bounded
  have sound := (same.linked tree.sound.linked).sound fewEnough
  refine sound.isTree (by rw [same.size]; exact tree.nonempty) ?_
  intro id inside
  obtain ⟨id, rfl⟩ := ρ.ref.surjective id
  have reached := tree.reached id ((same.inRange id).mp inside)
  rw [← same.root]
  exact ReflTransGen.lift ρ.ref (fun _ _ lists => same.lists_iff.mpr lists) _ _ reached

end RenumberedNodes

theorem Renumbering.Fits.renumberedNodes {ρ : Renumbering} {draft : Draft} (fits : ρ.Fits draft) :
    RenumberedNodes ρ draft.nodes (draft.renumber ρ).nodes where
  root := fits.root
  size := by simp [Draft.renumber]
  resolve := resolve_map_permute ρ.node fits.nodes

/-! ## Renumbered units -/

namespace CompilationUnit

structure Renumbered (ρ : Renumbering) (unit other : CompilationUnit) : Prop where
  path : other.path = unit.path
  lines : other.lines = unit.lines
  nodes : RenumberedNodes ρ unit.nodes other.nodes
  symbols : unit.symbols.Renumbered ρ other.symbols

theorem renumbered_self (unit : CompilationUnit) : unit.Renumbered .identity unit where
  path := rfl
  lines := rfl
  nodes := ⟨rfl, rfl, fun id => by simp⟩
  symbols := unit.symbols.renumbered_self

variable {ρ : Renumbering} {unit other : CompilationUnit}

namespace Renumbered

theorem node? (same : Renumbered ρ unit other) (id : NodeId) :
    other.node? (ρ.ref id) = (unit.node? id).map ρ.node := same.nodes.resolve id

theorem kind? (same : Renumbered ρ unit other) (id : NodeId) :
    other.kind? (ρ.ref id) = (unit.kind? id).map ρ.kind := by
  rw [CompilationUnit.kind?, CompilationUnit.kind?, same.node?, Option.map_map, Option.map_map]
  rfl

theorem parent? (same : Renumbered ρ unit other) (id : NodeId) :
    other.parent? (ρ.ref id) = (unit.parent? id).map ρ.ref := by
  ext parent
  obtain ⟨parent, rfl⟩ := ρ.ref.surjective parent
  rw [other.parent?_eq_some, same.nodes.lists_iff, ← unit.parent?_eq_some]
  simp

theorem parentChain (same : Renumbered ρ unit other) (fuel : Nat) (start : Option NodeId) :
    other.parentChain fuel (start.map ρ.ref) = (unit.parentChain fuel start).map ρ.ref := by
  induction fuel generalizing start with
  | zero => rfl
  | succ fuel ih =>
      cases start with
      | none => rfl
      | some id =>
          rw [Option.map_some, CompilationUnit.parentChain, CompilationUnit.parentChain, same.parent?, ih,
            List.map_cons]

theorem ancestors (same : Renumbered ρ unit other) (id : NodeId) :
    other.ancestors (ρ.ref id) = (unit.ancestors id).map ρ.ref := by
  rw [CompilationUnit.ancestors, CompilationUnit.ancestors, same.nodes.size, same.parent?, same.parentChain]

end Renumbered
end CompilationUnit
end MockAudit
