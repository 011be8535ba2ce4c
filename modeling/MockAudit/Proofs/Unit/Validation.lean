import MockAudit.Unit.Basic

namespace MockAudit.Draft

variable {draft : Draft} {lines : LineIndex} {fits : lines.Fits draft.source}

theorem validate_eq_ok (indexed : draft.lineIndex = .ok ⟨lines, fits⟩) {parents : ParentIndex}
    (linked : parentIndex draft.nodes = .ok parents) :
    draft.validate = .ok { path := draft.path, project := draft.project, source := draft.source, lines,
                           nodes := draft.nodes, parents, symbols := draft.symbols, fits, linked } := by
  unfold validate
  rw [indexed]
  simp only
  split
  · rename_i defect rejected
    simp [linked] at rejected
  · rename_i found accepted
    obtain rfl : parents = found := by simpa [linked] using accepted
    rfl

theorem validate_eq_error (indexed : draft.lineIndex = .ok ⟨lines, fits⟩) {defect : Defect} :
    draft.validate = .error defect ↔ parentIndex draft.nodes = .error defect := by
  cases linked : parentIndex draft.nodes with
  | ok parents => simp [validate_eq_ok indexed linked]
  | error found =>
      unfold validate
      rw [indexed]
      simp only
      split
      · rename_i defect rejected
        obtain rfl : found = defect := by simpa [linked] using rejected
        simp
      · rename_i parents accepted
        simp [linked] at accepted

structure Describes (draft : Draft) (unit : CompilationUnit) : Prop where
  path : unit.path = draft.path
  project : unit.project = draft.project
  source : unit.source = draft.source
  nodes : unit.nodes = draft.nodes
  symbols : unit.symbols = draft.symbols
  indexed : ∃ fits, draft.lineIndex = .ok ⟨unit.lines, fits⟩
  linked : parentIndex draft.nodes = .ok unit.parents

theorem Describes.kind? {unit : CompilationUnit} (described : draft.Describes unit) (id : NodeId) :
    unit.kind? id = (id.resolve draft.nodes).map (·.kind) := by
  rw [CompilationUnit.kind?, CompilationUnit.node?, described.nodes]

theorem describes_of_validate {unit : CompilationUnit} (valid : draft.validate = .ok unit) : draft.Describes unit := by
  cases indexed : draft.lineIndex with
  | error defect =>
      unfold validate at valid
      simp [indexed] at valid
  | ok index =>
      obtain ⟨lines, fits⟩ := index
      cases linked : parentIndex draft.nodes with
      | error defect =>
          rw [(validate_eq_error indexed).mpr linked] at valid
          simp at valid
      | ok parents =>
          rw [validate_eq_ok indexed linked, Except.ok.injEq] at valid
          subst valid
          exact ⟨rfl, rfl, rfl, rfl, rfl, ⟨fits, indexed⟩, linked⟩

theorem exists_of_validate_map {β : Type} {view : CompilationUnit → β} {value : β}
    (viewed : draft.validate.map view = .ok value) : ∃ unit, draft.validate = .ok unit ∧ view unit = value := by
  cases valid : draft.validate with
  | error defect => simp [valid, Except.map] at viewed
  | ok unit =>
      rw [valid] at viewed
      exact ⟨unit, rfl, Except.ok.inj viewed⟩

end MockAudit.Draft
