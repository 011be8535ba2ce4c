import MockAudit.Proofs.Analysis.Numbering
import MockAudit.Proofs.Analysis.Selection
import MockAudit.Proofs.Text.LineIndex

/-!
# A line index can stand for the text

The index that is scanned from a text is never checked, the one that a host supplies always is. The scanned one passes
that check, and no rule of the catalogue looks at the text itself.
-/

namespace MockAudit

def Draft.indexed (draft : Draft) (source : String) : Draft :=
  { draft with
    source := none
    lineStarts := some ((LineIndex.startPositions source).map UInt64.ofNat)
    length := some (.ofNat source.utf8ByteSize) }

theorem Draft.lineIndex_of_source {draft : Draft} {source : String} (given : draft.source = some source) :
    ∃ fits, draft.lineIndex = .ok ⟨.ofSource source, fits⟩ := by
  obtain ⟨path, project, text, lineStarts, length, nodes, symbols⟩ := draft
  subst given
  exact ⟨rfl, rfl⟩

theorem Draft.lineIndex_indexed (draft : Draft) {source : String} (small : source.utf8ByteSize < UInt64.size) :
    (draft.indexed source).lineIndex = .ok ⟨.ofSource source, LineIndex.accepts_ofSource small⟩ := by
  have accepted := LineIndex.accepts_ofSource small
  rw [LineIndex.ofSource_eq_positions] at accepted
  simp [Draft.lineIndex, Draft.indexed, accepted, LineIndex.ofSource_eq_positions]

structure CompilationUnit.SameButSource (unit other : CompilationUnit) : Prop where
  path : other.path = unit.path
  project : other.project = unit.project
  lines : other.lines = unit.lines
  nodes : other.nodes = unit.nodes
  parents : other.parents = unit.parents
  symbols : other.symbols = unit.symbols

theorem CompilationUnit.SameButSource.renumbered {unit other : CompilationUnit} (same : unit.SameButSource other) :
    unit.Renumbered .identity other where
  path := same.path
  lines := same.lines
  nodes := same.nodes ▸ unit.renumbered_self.nodes
  symbols := same.symbols ▸ unit.renumbered_self.symbols

def Rule.IgnoresSource (rule : Rule) : Prop :=
  ∀ (unit other : CompilationUnit) (v : Vocabulary) (id : NodeId), unit.SameButSource other →
    rule.findings ⟨other, v, id⟩ = rule.findings ⟨unit, v, id⟩

theorem Rule.IsBuiltIn.ignoresSource {rule : Rule} (builtIn : rule.IsBuiltIn) : rule.IgnoresSource := by
  intro unit other v id same
  have found := same.renumbered.reportsAlike v.sameIdiom_self builtIn.isInvariant id
  rw [Renumbering.identity_finding, List.map_id] at found
  exact found

theorem Analyzer.isBuiltIn_of_build {settings : Settings} {filter : Option (List String)} {analyzer : Analyzer}
    (built : Analyzer.build settings filter = .ok analyzer) {rule : Rule} (member : rule ∈ analyzer.rules) :
    rule.IsBuiltIn := by
  rw [Analyzer.build_eq_ok built] at member
  exact Rule.isBuiltIn_of_mem_catalogue (List.mem_filter.mp member).1

theorem Analyzer.analyze_sameButSource {analyzer : Analyzer} (blind : ∀ rule ∈ analyzer.rules, rule.IgnoresSource)
    {unit other : CompilationUnit} (same : unit.SameButSource other) :
    analyzer.analyze other = analyzer.analyze unit := by
  simp only [Analyzer.analyze]
  rw [same.renumbered.walk]
  intro rule member id
  rw [Renumbering.identity_finding, List.map_id]
  exact blind rule (List.mem_of_mem_filter member) unit other _ id same

theorem Draft.exists_indexed {draft : Draft} {source : String} (given : draft.source = some source)
    (small : source.utf8ByteSize < UInt64.size) {unit : CompilationUnit} (valid : draft.validate = .ok unit) :
    ∃ other, (draft.indexed source).validate = .ok other ∧ unit.SameButSource other := by
  have described := Draft.describes_of_validate valid
  obtain ⟨_, scanned⟩ := Draft.lineIndex_of_source given
  obtain ⟨_, indexed⟩ := described.indexed
  have lines : LineIndex.ofSource source = unit.lines := by simpa [scanned] using indexed
  refine ⟨_, Draft.validate_eq_ok (draft.lineIndex_indexed small) described.linked, ?_⟩
  exact ⟨described.path.symm, described.project.symm, lines, described.nodes.symm, rfl, described.symbols.symm⟩

/-- A draft may give the line index of its text in place of the text, as long as no rule asks a unit for it; no rule of
the catalogue does. Offsets are 64-bit words, so a text has fewer than 2⁶⁴ bytes. -/
theorem indexed_interchangeable {draft : Draft} {source : String} (given : draft.source = some source)
    (small : source.utf8ByteSize < UInt64.size) :
    (∀ defect, (draft.indexed source).validate = .error defect ↔ draft.validate = .error defect) ∧
    ∀ unit, draft.validate = .ok unit →
      ∃ other, (draft.indexed source).validate = .ok other ∧
        ∀ analyzer : Analyzer, (∀ rule ∈ analyzer.rules, rule.IsBuiltIn ∨ rule.IgnoresSource) →
          analyzer.analyze other = analyzer.analyze unit := by
  constructor
  · intro defect
    obtain ⟨_, scanned⟩ := Draft.lineIndex_of_source given
    rw [Draft.validate_eq_error (draft.lineIndex_indexed small), Draft.validate_eq_error scanned]
    rfl
  · intro unit valid
    obtain ⟨other, accepted, same⟩ := Draft.exists_indexed given small valid
    refine ⟨other, accepted, ?_⟩
    intro analyzer blind
    apply Analyzer.analyze_sameButSource _ same
    intro rule member
    exact (blind rule member).elim Rule.IsBuiltIn.ignoresSource id

def commentedText : String := "// für Tests\nnew CartMock().getMockInstance()\n"

def commentedCall : Draft :=
  { accessorCall with
    source := some commentedText
    lineStarts := some [7, 7]
    length := some 3
    nodes := #[⟨.compilationUnit, ⟨0, 47⟩, [⟨1⟩]⟩, ⟨.call ⟨2⟩ none (some ⟨0⟩) (some ⟨1⟩), ⟨14, 32⟩, [⟨2⟩]⟩,
      ⟨.simpleName "getMockInstance" none, ⟨29, 15⟩, []⟩] }

theorem indexed_interchangeable_commentedCall :
    (commentedCall.indexed commentedText).lineStarts = some [0, 14, 47] ∧
    ∃ unit other analyzer, commentedCall.validate = .ok unit ∧
      (commentedCall.indexed commentedText).validate = .ok other ∧ Analyzer.build {} none = .ok analyzer ∧
      analyzer.analyze other = analyzer.analyze unit ∧
      (analyzer.analyze unit).map (·.location.text) = ["CartTest.java:2:16"] := by
  have built : Analyzer.build {} none = .ok ⟨Rule.catalogue, {}⟩ := rfl
  obtain ⟨unit, valid, analysed⟩ := Draft.exists_of_validate_map (show (commentedCall.validate.map fun unit =>
    (Analyzer.analyze ⟨Rule.catalogue, {}⟩ unit).map (·.location.text)) = .ok ["CartTest.java:2:16"] by decide +kernel)
  have small : commentedText.utf8ByteSize < UInt64.size := by decide +kernel
  obtain ⟨other, accepted, same⟩ := (indexed_interchangeable rfl small).2 unit valid
  refine ⟨by decide +kernel, unit, other, _, valid, accepted, built, ?_, analysed⟩
  exact same _ fun rule member => .inl (Analyzer.isBuiltIn_of_build built member)

def Rule.quotableCall : Rule where
  code := "ML901"
  name := "quotable-call"
  description := "Flags calls whose text is at hand"
  severity := .warning
  triggers := [.call]
  findings site :=
    if site.unit.source.isSome then
      [{ anchor := site.node, severity := .warning, message := "Call can be quoted", suggestion := none }]
    else []

/-- Such a rule tells a draft with its text from one with the line index of the text. -/
theorem quotableCall_tells_drafts_apart : ∃ unit other, commentedCall.validate = .ok unit ∧
    (commentedCall.indexed commentedText).validate = .ok other ∧
    (Analyzer.analyze ⟨[.quotableCall], {}⟩ unit).map (·.location.text) = ["CartTest.java:2:1"] ∧
    Analyzer.analyze ⟨[.quotableCall], {}⟩ other = [] ∧
    ¬ ∀ analyzer : Analyzer, analyzer.analyze other = analyzer.analyze unit := by
  obtain ⟨unit, valid, quoted⟩ := Draft.exists_of_validate_map (show (commentedCall.validate.map fun unit =>
    (Analyzer.analyze ⟨[.quotableCall], {}⟩ unit).map (·.location.text)) = .ok ["CartTest.java:2:1"] by decide +kernel)
  obtain ⟨other, accepted, silent⟩ := Draft.exists_of_validate_map (show
    ((commentedCall.indexed commentedText).validate.map (Analyzer.analyze ⟨[.quotableCall], {}⟩)) = .ok []
      by decide +kernel)
  refine ⟨unit, other, valid, accepted, quoted, silent, fun same => ?_⟩
  have equal := same ⟨[.quotableCall], {}⟩
  rw [silent] at equal
  simp [← equal] at quoted

end MockAudit
