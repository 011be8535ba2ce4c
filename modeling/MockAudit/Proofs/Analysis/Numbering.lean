import MockAudit.Analysis.Walk
import MockAudit.Proofs.Rule.Scope
import MockAudit.Proofs.Unit.Validation

namespace MockAudit

theorem Draft.exists_renumbered {draft : Draft} {unit : CompilationUnit} (valid : draft.validate = .ok unit)
    {ρ : Renumbering} (fits : ρ.Fits draft) :
    ∃ other, (draft.renumber ρ).validate = .ok other ∧ unit.Renumbered ρ other := by
  have described := Draft.describes_of_validate valid
  obtain ⟨belongs, indexed⟩ := described.indexed
  have moved := fits.renumberedNodes
  rw [← described.nodes] at moved
  have bounded : (draft.renumber ρ).nodes.size ≤ 2 ^ 32 := by
    rw [moved.size]
    exact unit.nodes_size_le
  have unchanged : (draft.renumber ρ).lineIndex = .ok ⟨unit.lines, belongs⟩ := indexed
  obtain ⟨parents, linked, -⟩ := parentIndex_of_isTree bounded (moved.isTree unit.nodes_size_le unit.isTree)
  refine ⟨_, Draft.validate_eq_ok unchanged linked, ?_⟩
  constructor
  · exact described.path.symm
  · rfl
  · exact moved
  · rw [described.symbols]
    exact fits.symbols

@[simp] theorem Renumbering.kind_importsFramework (ρ : Renumbering) (v : Vocabulary) (kind : NodeKind) :
    (ρ.kind kind).importsFramework v = kind.importsFramework v := by
  cases kind <;> rfl

def Rule.ReportsAlike (ρ : Renumbering) (unit other : CompilationUnit) (v w : Vocabulary) (rule : Rule) : Prop :=
  ∀ id, rule.findings ⟨other, w, ρ.ref id⟩ = (rule.findings ⟨unit, v, id⟩).map ρ.finding

namespace CompilationUnit.Renumbered

variable {ρ : Renumbering} {unit other : CompilationUnit} {v w : Vocabulary}

theorem corresponds (same : Renumbered ρ unit other) (idiom : v.SameIdiom w) (id : NodeId) :
    Site.Corresponds ρ ⟨unit, v, id⟩ ⟨other, w, ρ.ref id⟩ where
  symbols := same.symbols
  idiom := idiom
  scope := by simp [Site.scope, same.ancestors]
  kind := fun id _ => same.kind? id
  receiver := fun _ receiver _ _ _ => same.kind? receiver

theorem reportsAlike (same : Renumbered ρ unit other) (idiom : v.SameIdiom w) {rule : Rule}
    (invariant : rule.IsInvariant) : rule.ReportsAlike ρ unit other v w :=
  fun id => invariant ρ _ _ (same.corresponds idiom id)

theorem locate (same : Renumbered ρ unit other) (anchor : NodeId) :
    (other.locate (ρ.ref anchor)).toOption = (unit.locate anchor).toOption := by
  unfold CompilationUnit.locate
  rw [same.node?, same.path, same.lines]
  cases unit.node? anchor with
  | none => rfl
  | some node =>
      simp only [Option.map_some, Renumbering.node]
      split
      · cases unit.lines.position? node.span.start <;> rfl
      · rfl

theorem place (same : Renumbered ρ unit other) (rule : Rule) (finding : Finding) :
    (rule.place other (ρ.finding finding)).toOption = (rule.place unit finding).toOption := by
  have toOption_map {f : Location → Diagnostic} (result : Except PlacementError Location) :
      (result.map f).toOption = result.toOption.map f := by
    cases result <;> rfl
  unfold Rule.place
  rw [toOption_map, toOption_map]
  exact congrArg _ (same.locate finding.anchor)

theorem diagnosticsAt (same : Renumbered ρ unit other) {rule : Rule} (alike : rule.ReportsAlike ρ unit other v w)
    (id : NodeId) : rule.diagnosticsAt ⟨other, w, ρ.ref id⟩ = rule.diagnosticsAt ⟨unit, v, id⟩ := by
  unfold Rule.diagnosticsAt
  rw [alike id, List.filterMap_map]
  exact List.filterMap_congr fun finding _ => same.place rule finding

theorem checkNode (same : Renumbered ρ unit other) {rules : List Rule}
    (alike : ∀ rule ∈ rules, rule.ReportsAlike ρ unit other v w) (id : NodeId) (kind : NodeKind) :
    checkNode other w rules (ρ.ref id) (ρ.kind kind) = checkNode unit v rules id kind := by
  unfold MockAudit.checkNode
  rw [Renumbering.kind_trigger?]
  cases kind.trigger? with
  | none => rfl
  | some trigger =>
      apply List.flatMap_congr
      intro rule member
      exact same.diagnosticsAt (alike rule (List.mem_of_mem_filter member)) id

theorem walkStack (same : Renumbered ρ unit other) {rules : List Rule}
    (alike : ∀ rule ∈ rules, rule.ReportsAlike ρ unit other v v) (fuel : Nat) (stack : List NodeId) (imported : Bool) :
    walkStack other v rules fuel (stack.map ρ.ref) imported = walkStack unit v rules fuel stack imported := by
  induction fuel generalizing stack imported with
  | zero => cases stack <;> rfl
  | succ fuel ih =>
      cases stack with
      | nil => rfl
      | cons id stack =>
          simp only [List.map_cons, MockAudit.walkStack, same.node?]
          cases unit.node? id with
          | none => exact ih stack imported
          | some node =>
              simp only [Option.map_some, Renumbering.node, Renumbering.kind_importsFramework,
                Renumbering.kind_isTypeDecl, same.checkNode alike, ← List.map_append, ih]

theorem walk (same : Renumbered ρ unit other) {rules : List Rule}
    (alike : ∀ rule ∈ rules, rule.ReportsAlike ρ unit other v v) : walk other v rules = walk unit v rules := by
  have start : [rootId] = [rootId].map ρ.ref := by simp [same.nodes.root]
  unfold MockAudit.walk
  rw [same.nodes.size, start, same.walkStack alike, ← start]

end CompilationUnit.Renumbered

/-- A renumbering that fits a valid draft leaves it valid, and rules of the catalogue, in any selection and at any
severity, report the same diagnostics in the same order. -/
theorem walk_renumber {draft : Draft} {unit : CompilationUnit} (valid : draft.validate = .ok unit)
    {ρ : Renumbering} (fits : ρ.Fits draft) (v : Vocabulary) {rules : List Rule}
    (builtIn : ∀ rule ∈ rules, rule.IsBuiltIn) :
    ∃ renumbered, (draft.renumber ρ).validate = .ok renumbered ∧ walk renumbered v rules = walk unit v rules := by
  obtain ⟨renumbered, accepted, same⟩ := Draft.exists_renumbered valid fits
  exact ⟨renumbered, accepted, same.walk fun rule member =>
    same.reportsAlike v.sameIdiom_self (builtIn rule member).isInvariant⟩

def accessorCall : Draft where
  path := "CartTest.java"
  source := some "new CartMock().getMockInstance()"
  nodes := #[⟨.compilationUnit, ⟨0, 32⟩, [⟨1⟩]⟩, ⟨.call ⟨2⟩ none (some ⟨0⟩) (some ⟨1⟩), ⟨0, 32⟩, [⟨2⟩]⟩,
    ⟨.simpleName "getMockInstance" none, ⟨15, 15⟩, []⟩]
  symbols :=
    { types := #[{ name := "MockUp", qualifiedName := "mockit.MockUp" },
        { name := "Cart", qualifiedName := "shop.Cart" }]
      methods := #[{ name := "getMockInstance", declaringType := ⟨0⟩ }] }

def swappedNumbers : Renumbering where
  ref {table} :=
    match table with
    | .node => Equiv.swap ⟨1⟩ ⟨2⟩
    | .type => Equiv.swap ⟨0⟩ ⟨1⟩
    | .method | .field => Equiv.refl _

theorem swap_keeps {table : Table} {first second : Ref table} {size : Nat} (firstInside : first.toNat < size)
    (secondInside : second.toNat < size) (ref : Ref table) :
    (Equiv.swap first second ref).toNat < size ↔ ref.toNat < size := by
  rw [Equiv.swap_apply_def]
  split
  · simp_all
  · split <;> simp_all

theorem swappedNumbers_fits : swappedNumbers.Fits accessorCall where
  root := rfl
  nodes := swap_keeps (by decide) (by decide)
  types := swap_keeps (by decide) (by decide)
  methods := fun _ => Iff.rfl
  fields := fun _ => Iff.rfl

theorem walk_renumber_accessorCall : ∃ unit renumbered, accessorCall.validate = .ok unit ∧
    (accessorCall.renumber swappedNumbers).validate = .ok renumbered ∧
    walk renumbered {} Rule.catalogue = walk unit {} Rule.catalogue ∧
    (walk unit {} Rule.catalogue).map (·.location.column) = [16] := by
  obtain ⟨unit, valid, analysed⟩ := Draft.exists_of_validate_map (show (accessorCall.validate.map fun unit =>
    (walk unit {} Rule.catalogue).map (·.location.column)) = .ok [16] by decide +kernel)
  obtain ⟨renumbered, accepted, same⟩ :=
    walk_renumber valid swappedNumbers_fits {} fun _ => Rule.isBuiltIn_of_mem_catalogue
  exact ⟨unit, renumbered, valid, accepted, same, analysed⟩

end MockAudit
