import MockAudit.Proofs.Analysis.Numbering
import MockAudit.Proofs.Analysis.Walk
import Mathlib.Data.List.Flatten

namespace MockAudit
namespace CompilationUnit

variable {unit : CompilationUnit} {v w : Vocabulary}

def RecognisesMore (unit : CompilationUnit) (v w : Vocabulary) : Prop :=
  ∀ id name onDemand, unit.kind? id = some (.importDecl name onDemand) →
    v.recognises name onDemand → w.recognises name onDemand

theorem importsFramework_mono (more : unit.RecognisesMore v w) {id : NodeId}
    (imports : unit.importsFramework v id) : unit.importsFramework w id := by
  obtain ⟨kind, found, imports⟩ := (Option.any_eq_true _ _).mp imports
  apply (Option.any_eq_true _ _).mpr
  refine ⟨kind, found, ?_⟩
  cases kind with
  | importDecl name onDemand => exact more id name onDemand found imports
  | _ => simp [NodeKind.importsFramework] at imports

theorem openingImport?_mono (more : unit.RecognisesMore v w) {opening : NodeId}
    (opens : unit.openingImport? v = some opening) :
    ∃ first, unit.openingImport? w = some first ∧ (first = opening ∨ unit.Precedes first opening) := by
  obtain ⟨conditions, before, after, cut, -⟩ := List.find?_eq_some_iff_append.mp opens
  let opensToo (id : NodeId) := unit.importsFramework w id && !(unit.ancestors id).any unit.declaresType
  have whole : unit.openingImport? w = unit.preorder.find? opensToo := rfl
  have outside : opensToo opening = true := by
    simp only [Bool.and_eq_true] at conditions
    simp only [opensToo, importsFramework_mono more conditions.1, conditions.2, Bool.and_self]
  rw [cut, List.find?_append, List.find?_cons_of_pos outside] at whole
  cases earlier : before.find? opensToo with
  | none => exact ⟨opening, by simp [whole, earlier], .inl rfl⟩
  | some first =>
      refine ⟨first, by simp [whole, earlier], .inr ?_⟩
      exact (unit.precedes_iff cut).mpr (List.mem_of_find?_eq_some earlier)

theorem isOpened_mono (more : unit.RecognisesMore v w) {id : NodeId} (opened : unit.isOpened v id) :
    unit.isOpened w id := by
  obtain ⟨opening, opens, precedes⟩ := (Option.any_eq_true _ _).mp opened
  rw [decide_eq_true_iff] at precedes
  obtain ⟨first, opensToo, order⟩ := openingImport?_mono more opens
  apply (Option.any_eq_true _ _).mpr
  refine ⟨first, opensToo, decide_eq_true ?_⟩
  rcases order with rfl | earlier
  · exact precedes
  · exact unit.precedes_trans earlier precedes

theorem isVisited_mono (more : unit.RecognisesMore v w) {id : NodeId} (visited : unit.isVisited v id) :
    unit.isVisited w id := by
  rw [isVisited_iff] at visited ⊢
  intro scope above declares
  exact isOpened_mono more (visited scope above declares)

theorem reportAt_congr (unit : CompilationUnit) (idiom : v.SameIdiom w) {rules : List Rule}
    (invariant : ∀ rule ∈ rules, rule.IsInvariant) (id : NodeId) :
    unit.reportAt w rules id = unit.reportAt v rules id := by
  unfold reportAt
  apply List.flatMap_congr
  intro rule member
  have alike := unit.renumbered_self.reportsAlike idiom (invariant rule (List.mem_of_mem_filter member))
  exact unit.renumbered_self.diagnosticsAt alike id

end CompilationUnit

open CompilationUnit

/-- Of two vocabularies that differ in the imports they recognise, the one that recognises at least those imports
of a unit that the other one does reports at least the same diagnostics, in the same order. -/
theorem walk_sublist_of_recognisesMore (unit : CompilationUnit) {v w : Vocabulary} (idiom : v.SameIdiom w)
    (more : unit.RecognisesMore v w) {rules : List Rule} (builtIn : ∀ rule ∈ rules, rule.IsBuiltIn) :
    (walk unit v rules).Sublist (walk unit w rules) := by
  have alike (id : NodeId) : unit.reportAt v rules id = unit.reportAt w rules id :=
    (unit.reportAt_congr idiom (fun rule member => (builtIn rule member).isInvariant) id).symm
  have visits : (unit.preorder.filter (unit.isVisited v)).Sublist (unit.preorder.filter (unit.isVisited w)) :=
    List.monotone_filter_right _ fun _ => isVisited_mono more
  rw [walk_eq_visited, walk_eq_visited, funext alike]
  exact visits.flatMap _

def importingTest : Draft :=
  { accessorCall with
    source := some "import mockit.Mock; class CartTest { Cart cart = new CartMock().getMockInstance(); }"
    nodes := #[⟨.compilationUnit, ⟨0, 84⟩, [⟨1⟩, ⟨2⟩]⟩, ⟨.importDecl "mockit.Mock" false, ⟨0, 19⟩, []⟩,
      ⟨.typeDecl ⟨3⟩ none, ⟨20, 64⟩, [⟨3⟩, ⟨4⟩]⟩, ⟨.simpleName "CartTest" none, ⟨26, 8⟩, []⟩,
      ⟨.call ⟨5⟩ none (some ⟨0⟩) (some ⟨1⟩), ⟨49, 32⟩, [⟨5⟩]⟩,
      ⟨.simpleName "getMockInstance" none, ⟨64, 15⟩, []⟩] }

theorem walk_sublist_importingTest : ∃ unit, importingTest.validate = .ok unit ∧
    (walk unit { importStem := "mockit.MockUp" } Rule.catalogue).Sublist (walk unit {} Rule.catalogue) ∧
    walk unit { importStem := "mockit.MockUp" } Rule.catalogue = [] ∧
    (walk unit {} Rule.catalogue).map (·.location.column) = [65] := by
  obtain ⟨unit, valid, analysed⟩ := Draft.exists_of_validate_map (show (importingTest.validate.map fun unit =>
    (walk unit { importStem := "mockit.MockUp" } Rule.catalogue,
      (walk unit {} Rule.catalogue).map (·.location.column))) = .ok ([], [65]) by decide +kernel)
  have more : unit.RecognisesMore { importStem := "mockit.MockUp" } {} := by
    intro id name onDemand _ recognised
    cases onDemand with
    | true => exact recognised
    | false =>
        have narrow : "mockit.MockUp".toList <+: name.toList := List.isPrefixOf_iff_prefix.mp recognised
        have stems : "mockit.Mock".toList <+: "mockit.MockUp".toList := by decide
        exact List.isPrefixOf_iff_prefix.mpr (stems.trans narrow)
  have idiom : ({ importStem := "mockit.MockUp" } : Vocabulary).SameIdiom {} := ⟨rfl, rfl, rfl, rfl, rfl, rfl⟩
  have fewer := walk_sublist_of_recognisesMore unit idiom more fun _ => Rule.isBuiltIn_of_mem_catalogue
  exact ⟨unit, valid, fewer, Prod.mk.inj analysed⟩

end MockAudit
