import MockAudit.Diagnostic.Placement
import MockAudit.Proofs.Text.LineIndex
import MockAudit.Proofs.Unit.Validation
import MockAudit.Rule.Reentrancy

namespace MockAudit

theorem Span.toNat_stop (span : Span) :
    span.stop.toNat = min (span.start.toNat + span.len.toNat) (UInt64.size - 1) := by
  unfold stop
  split
  · rename_i small
    rw [UInt64.toNat_add, Nat.mod_eq_of_lt small]
    omega
  · rw [show maxOffset.toNat = UInt64.size - 1 from rfl]
    omega

theorem Span.covers_file_iff_or (length : UInt64) (span : Span) :
    covers ⟨0, length⟩ span ↔
      span.start.toNat + span.len.toNat ≤ length.toNat ∨ length = maxOffset := by
  have bound := length.toNat_lt_size
  rw [covers, Bool.and_eq_true, decide_eq_true_iff, decide_eq_true_iff, and_iff_right UInt64.zero_le,
    UInt64.le_iff_toNat_le, toNat_stop, toNat_stop, ← UInt64.toNat_inj,
    show maxOffset.toNat = UInt64.size - 1 from rfl]
  simp only [UInt64.toNat_zero, Nat.zero_add]
  omega

theorem Span.covers_file_iff {length : UInt64} (small : length.toNat + 1 < UInt64.size) (span : Span) :
    covers ⟨0, length⟩ span ↔ span.start.toNat + span.len.toNat ≤ length.toNat := by
  rw [covers_file_iff_or, or_iff_left]
  rintro rfl
  exact Nat.lt_irrefl _ small

namespace CompilationUnit

variable {unit : CompilationUnit} {anchor : NodeId} {node : Node}

def byteCount (unit : CompilationUnit) : Nat :=
  match unit.source with
  | some source => source.utf8ByteSize
  | none => unit.lines.length.toNat

theorem lines_of_small (small : unit.byteCount < UInt64.size) :
    LineIndex.accepts unit.lines.starts unit.lines.length ∧ unit.lines.length.toNat = unit.byteCount := by
  obtain ⟨path, project, source, lines, nodes, parents, symbols, fits, linked⟩ := unit
  cases source with
  | none => exact ⟨fits, rfl⟩
  | some source =>
      obtain rfl : lines = .ofSource source := fits
      exact ⟨LineIndex.accepts_ofSource small, UInt64.toNat_ofNat_of_lt' small⟩

end CompilationUnit

/-- The location is where the span is in the unit's file: it has the bytes of the span, all of them in the file, and
its line and column are those of the first one. -/
structure Location.Marks (location : Location) (unit : CompilationUnit) (span : Span) : Prop where
  file : location.file = unit.path
  offset : location.offset = span.start
  endOffset : location.endOffset.toNat = location.offset.toNat + span.len.toNat
  ordered : location.offset ≤ location.endOffset
  inside : location.endOffset.toNat ≤ unit.byteCount
  length : location.length = span.len
  line : 1 ≤ location.line.toNat ∧ location.line.toNat ≤ unit.lines.lineCount
  column : 1 ≤ location.column.toNat
  position : ∃ start, unit.lines.OnLine location.line.toNat start location.offset ∧
    location.offset.toNat = start.toNat + location.column.toNat - 1

namespace CompilationUnit

variable {unit : CompilationUnit} {anchor : NodeId} {node : Node}

theorem locate_of_missing (missing : unit.node? anchor = none) : unit.locate anchor = .error (.unknownNode anchor) := by
  simp [locate, missing]

theorem locate_of_outside (small : unit.byteCount + 1 < UInt64.size) (found : unit.node? anchor = some node)
    (outside : unit.byteCount < node.span.start.toNat + node.span.len.toNat) :
    unit.locate anchor = .error (.outOfBounds anchor node.span.start node.span.stop unit.lines.length) := by
  obtain ⟨-, length⟩ := unit.lines_of_small (Nat.lt_of_succ_lt small)
  have uncovered : Span.covers ⟨0, unit.lines.length⟩ node.span = false := by
    rw [← Bool.not_eq_true, Span.covers_file_iff (by omega)]
    omega
  simp [locate, found, uncovered]

theorem exists_locate (small : unit.byteCount + 1 < UInt64.size) (found : unit.node? anchor = some node)
    (inside : node.span.start.toNat + node.span.len.toNat ≤ unit.byteCount) :
    ∃ location, unit.locate anchor = .ok location ∧ location.Marks unit node.span := by
  obtain ⟨accepted, length⟩ := unit.lines_of_small (Nat.lt_of_succ_lt small)
  have covered : Span.covers ⟨0, unit.lines.length⟩ node.span = true := by
    rw [Span.covers_file_iff (by omega)]
    omega
  have startInside : node.span.start ≤ unit.lines.length := by
    rw [UInt64.le_iff_toNat_le]
    omega
  obtain ⟨start, onLine⟩ := LineIndex.exists_onLine accepted node.span.start
  obtain ⟨position, isPosition, number, column⟩ :=
    LineIndex.exists_position? accepted (by omega) onLine startInside
  have reached := UInt64.le_iff_toNat_le.mp onLine.reached
  have stop : node.span.stop.toNat = node.span.start.toNat + node.span.len.toNat := by
    rw [Span.toNat_stop]
    omega
  have ordered : node.span.start ≤ node.span.stop := by
    rw [UInt64.le_iff_toNat_le]
    omega
  refine ⟨⟨unit.path, position.line, position.column, node.span.start, node.span.stop⟩, ?_, ?_⟩
  · simp [locate, found, covered, isPosition]
  · exact {
      file := rfl
      offset := rfl
      endOffset := stop
      ordered := ordered
      inside := by rw [stop]; exact inside
      length := by
        rw [Location.length, ← UInt64.toNat_inj, UInt64.toNat_sub_of_le _ _ ordered, stop]
        omega
      line := by rw [number]; exact LineIndex.line_inRange onLine.starts
      column := by simp only; omega
      position := ⟨start, by rw [number]; exact onLine, by simp only; omega⟩ }

end CompilationUnit

namespace Rule

variable {unit : CompilationUnit} {rule : Rule} {finding : Finding}

theorem place_eq_error {fault : PlacementError} :
    rule.place unit finding = .error fault ↔ unit.locate finding.anchor = .error fault := by
  unfold place
  cases unit.locate finding.anchor <;> simp [Except.map]

theorem place_eq_ok {d : Diagnostic} : rule.place unit finding = .ok d ↔
    ∃ location, unit.locate finding.anchor = .ok location ∧
      d = { code := rule.code, rule := rule.name, severity := finding.severity, location,
            message := finding.message, suggestion := finding.suggestion, kind := Diagnostic.mockSemantics } := by
  unfold place
  cases unit.locate finding.anchor <;> simp [Except.map, eq_comm]

/-- A finding becomes a diagnostic exactly when its anchor exists and ends, in exact numbers, within the file. Offsets
are 64-bit words, so a text in memory always has fewer than 2⁶⁴ - 1 bytes. -/
theorem place_decides {unit : CompilationUnit} (small : unit.byteCount + 1 < UInt64.size) (rule : Rule)
    (finding : Finding) :
    (rule.place unit finding = .error (.unknownNode finding.anchor) ↔ unit.node? finding.anchor = none) ∧
    (∀ start stop length, rule.place unit finding = .error (.outOfBounds finding.anchor start stop length) ↔
      ∃ node, unit.node? finding.anchor = some node ∧
        unit.byteCount < node.span.start.toNat + node.span.len.toNat ∧
        start = node.span.start ∧ stop = node.span.stop ∧ length = unit.lines.length) ∧
    ((∃ d, rule.place unit finding = .ok d) ↔
      ∃ node, unit.node? finding.anchor = some node ∧
        node.span.start.toNat + node.span.len.toNat ≤ unit.byteCount) ∧
    ∀ d, rule.place unit finding = .ok d →
      ∃ node, unit.node? finding.anchor = some node ∧ d.location.Marks unit node.span ∧
        d = { code := rule.code, rule := rule.name, severity := finding.severity, location := d.location,
              message := finding.message, suggestion := finding.suggestion, kind := Diagnostic.mockSemantics } := by
  simp only [place_eq_error, place_eq_ok]
  cases found : unit.node? finding.anchor with
  | none =>
      have unknown := CompilationUnit.locate_of_missing found
      simp [unknown]
  | some node =>
      by_cases inside : node.span.start.toNat + node.span.len.toNat ≤ unit.byteCount
      · obtain ⟨location, located, marks⟩ := CompilationUnit.exists_locate small found inside
        simp [located, inside, marks]
      · have outside := CompilationUnit.locate_of_outside small found (by omega)
        have beyond := Nat.lt_of_not_le inside
        simp [outside, inside, beyond, eq_comm]

def hugeFile : Draft where
  path := "CartTest.java"
  lineStarts := some [0, 10]
  length := some 0xFFFFFFFFFFFFFFFD
  nodes := #[⟨.compilationUnit, ⟨0, 0⟩, [⟨1⟩, ⟨2⟩]⟩, ⟨.other, ⟨0xFFFFFFFFFFFFFFFB, 2⟩, []⟩,
    ⟨.other, ⟨0xFFFFFFFFFFFFFFFB, 0xFFFFFFFFFFFFFFFF⟩, []⟩]

theorem place_decides_hugeFile : ∃ unit, hugeFile.validate = .ok unit ∧ unit.byteCount + 1 < UInt64.size ∧
    (∃ d, (selfInvocation .error).place unit ⟨⟨1⟩, .error, "look", none⟩ = .ok d ∧
      d.location.endOffset.toNat = unit.byteCount) ∧
    (selfInvocation .error).place unit ⟨⟨2⟩, .error, "look", none⟩ =
      .error (.outOfBounds ⟨2⟩ 0xFFFFFFFFFFFFFFFB 0xFFFFFFFFFFFFFFFF 0xFFFFFFFFFFFFFFFD) ∧
    (selfInvocation .error).place unit ⟨⟨3⟩, .error, "look", none⟩ = .error (.unknownNode ⟨3⟩) := by
  obtain ⟨unit, valid, seen⟩ := Draft.exists_of_validate_map (show (hugeFile.validate.map fun unit =>
    (unit.byteCount, unit.lines.length, (unit.node? ⟨1⟩).map (·.span), (unit.node? ⟨2⟩).map (·.span),
      (unit.node? ⟨3⟩).isSome)) =
    .ok (18446744073709551613, 0xFFFFFFFFFFFFFFFD, some ⟨0xFFFFFFFFFFFFFFFB, 2⟩,
      some ⟨0xFFFFFFFFFFFFFFFB, 0xFFFFFFFFFFFFFFFF⟩, false) by decide +kernel)
  simp only [Prod.mk.injEq, Option.map_eq_some_iff, Option.isSome_eq_false_iff, Option.isNone_iff_eq_none] at seen
  obtain ⟨bytes, length, ⟨first, isFirst, firstSpan⟩, ⟨second, isSecond, secondSpan⟩, third⟩ := seen
  have small : unit.byteCount + 1 < UInt64.size := by rw [bytes]; decide
  have decided (anchor : NodeId) := place_decides small (selfInvocation .error) ⟨anchor, .error, "look", none⟩
  refine ⟨unit, valid, small, ?_, ?_, ?_⟩
  · have fits : first.span.start.toNat + first.span.len.toNat ≤ unit.byteCount := by
      rw [firstSpan, bytes]
      decide
    obtain ⟨d, placed⟩ := (decided ⟨1⟩).2.2.1.mpr ⟨first, isFirst, fits⟩
    obtain ⟨node, found, marks, -⟩ := (decided ⟨1⟩).2.2.2 d placed
    obtain rfl : first = node := Option.some.inj (isFirst.symm.trans found)
    refine ⟨d, placed, ?_⟩
    rw [marks.endOffset, marks.offset, firstSpan, bytes]
    rfl
  · refine ((decided ⟨2⟩).2.1 _ _ _).mpr ⟨second, isSecond, ?_⟩
    rw [secondSpan, bytes, length]
    decide
  · exact (decided ⟨3⟩).1.mpr third

end Rule
end MockAudit
