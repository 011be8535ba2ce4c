import MockAudit.Proofs.Diagnostic.Placement
import MockAudit.Proofs.Text.Position

/-!
# Words and exact numbers

What is computed from line starts, lengths and offsets agrees with exact numbers, save at the upper end of the words.
-/

namespace MockAudit

namespace LineIndex

variable {index : LineIndex} {line : Nat} {start offset : UInt64} {position : Position}

theorem exists_position?_exact (accepted : accepts index.starts index.length) (fewer : index.lineCount < UInt64.size)
    (inside : offset ≤ index.length) :
    ∃ position start, index.position? offset = some position ∧ index.OnLine position.line.toNat start offset ∧
      (position.column.toNat = offset.toNat - start.toNat + 1 ∨
        start = 0 ∧ offset = Span.maxOffset ∧ position.column = 0) := by
  obtain ⟨start, onLine⟩ := exists_onLine accepted offset
  obtain ⟨number, found⟩ := position?_of_onLine accepted fewer onLine inside
  have column := toNat_column onLine.reached
  have reached := UInt64.le_iff_toNat_le.mp onLine.reached
  have bound := offset.toNat_lt_size
  refine ⟨_, start, found, by rw [number]; exact onLine, ?_⟩
  -- The column is at most 2⁶⁴, and wraps to 0 if it is that.
  by_cases fits : offset.toNat - start.toNat + 1 < UInt64.size
  · left
    rw [column, Nat.mod_eq_of_lt fits]
  · right
    have whole : offset.toNat - start.toNat + 1 = UInt64.size := by omega
    rw [whole, Nat.mod_self] at column
    have top : Span.maxOffset.toNat = UInt64.size - 1 := rfl
    refine ⟨?_, ?_, UInt64.toNat_inj.mp column⟩
    · rw [← UInt64.toNat_inj, UInt64.toNat_zero]
      omega
    · rw [← UInt64.toNat_inj, top]
      omega

theorem offset?_eq_some_exact : index.offset? position = some offset ↔
    1 ≤ position.line.toNat ∧ position.line.toNat ≤ index.lineCount ∧ 1 ≤ position.column.toNat ∧
      offset ≤ index.length ∧ ∃ start, index.lineStart? position.line.toNat = some start ∧
        (start.toNat + (position.column.toNat - 1) = offset.toNat ∨
          start.toNat + (position.column.toNat - 1) = offset.toNat + UInt64.size) := by
  rw [offset?_eq_some]
  have wrapped (start : UInt64) : offset.toNat = (start.toNat + (position.column.toNat - 1)) % UInt64.size ↔
      start.toNat + (position.column.toNat - 1) = offset.toNat ∨
        start.toNat + (position.column.toNat - 1) = offset.toNat + UInt64.size := by
    have startBound := start.toNat_lt_size
    have columnBound := position.column.toNat_lt_size
    have offsetBound := offset.toNat_lt_size
    unfold UInt64.size at *
    omega
  simp only [wrapped]
  constructor
  · rintro ⟨start, found, positive, inside, sum⟩
    obtain ⟨lineAbove, lineBelow⟩ := line_inRange found
    exact ⟨lineAbove, lineBelow, positive, inside, start, found, sum⟩
  · rintro ⟨-, -, positive, inside, start, found, sum⟩
    exact ⟨start, found, positive, inside, sum⟩

end LineIndex

theorem CompilationUnit.exists_locate_iff {unit : CompilationUnit} {anchor : NodeId}
    (accepted : LineIndex.accepts unit.lines.starts unit.lines.length)
    (fewer : unit.lines.lineCount < UInt64.size) :
    (∃ location, unit.locate anchor = .ok location) ↔
      ∃ node, unit.node? anchor = some node ∧ Span.covers ⟨0, unit.lines.length⟩ node.span := by
  unfold locate
  cases found : unit.node? anchor with
  | none => simp
  | some node =>
      simp only [Option.some.injEq, exists_eq_left']
      by_cases covered : Span.covers ⟨0, unit.lines.length⟩ node.span
      · -- The start is inside whether the end is or is only capped, so the look-up of its line does not fail.
        have inside : node.span.start ≤ unit.lines.length := by
          have bound := node.span.start.toNat_lt_size
          rw [Span.covers_file_iff_or] at covered
          rw [UInt64.le_iff_toNat_le]
          rcases covered with ends | top
          · omega
          · rw [top, show Span.maxOffset.toNat = UInt64.size - 1 from rfl]
            omega
        obtain ⟨position, -, isPosition, -⟩ := LineIndex.exists_position?_exact accepted fewer inside
        simp [covered, isPosition]
      · simp [covered]

theorem Rule.exists_place_iff {unit : CompilationUnit}
    (accepted : LineIndex.accepts unit.lines.starts unit.lines.length)
    (fewer : unit.lines.lineCount < UInt64.size) (rule : Rule) (finding : Finding) :
    (∃ d, rule.place unit finding = .ok d) ↔ ∃ node, unit.node? finding.anchor = some node ∧
      (node.span.start.toNat + node.span.len.toNat ≤ unit.lines.length.toNat ∨
        unit.lines.length = Span.maxOffset) := by
  simp only [place_eq_ok, ← Span.covers_file_iff_or]
  rw [← CompilationUnit.exists_locate_iff accepted fewer]
  constructor
  · rintro ⟨d, location, located, -⟩
    exact ⟨location, located⟩
  · rintro ⟨location, located⟩
    exact ⟨_, location, located, rfl⟩

namespace LineIndex

/-- Three cases at the upper end of the words are apart: the last offset there is has column 0 on a line that starts at
0; a column whose sum is no word leads to an offset in front of its line, if there is one; and a file of the greatest
length has a place for every node. -/
theorem words_compute_exactly {starts : List UInt64} {length : UInt64} {index : LineIndex}
    (accepted : ofStarts? starts length = some index) (fewer : starts.length < UInt64.size) :
    (∀ offset ≤ length, ∃ position start, index.position? offset = some position ∧
      index.OnLine position.line.toNat start offset ∧
      (position.column.toNat = offset.toNat - start.toNat + 1 ∨
        start = 0 ∧ offset = Span.maxOffset ∧ position.column = 0)) ∧
    (∀ position offset, index.offset? position = some offset ↔
      1 ≤ position.line.toNat ∧ position.line.toNat ≤ index.lineCount ∧ 1 ≤ position.column.toNat ∧
        offset ≤ length ∧ ∃ start, index.lineStart? position.line.toNat = some start ∧
          (start.toNat + (position.column.toNat - 1) = offset.toNat ∨
            start.toNat + (position.column.toNat - 1) = offset.toNat + UInt64.size)) ∧
    ∀ (unit : CompilationUnit) (rule : Rule) (finding : Finding), unit.lines = index →
      ((∃ d, rule.place unit finding = .ok d) ↔ ∃ node, unit.node? finding.anchor = some node ∧
        (node.span.start.toNat + node.span.len.toNat ≤ length.toNat ∨ length = Span.maxOffset)) := by
  obtain ⟨rfl, acceptable⟩ := ofStarts?_eq_some.mp accepted
  refine ⟨fun offset inside => exists_position?_exact acceptable fewer inside,
    fun position offset => offset?_eq_some_exact, fun unit rule finding lines => ?_⟩
  rw [Rule.exists_place_iff (by rw [lines]; exact acceptable) (by rw [lines]; exact fewer) rule finding, lines]

def vastFile : Draft where
  path := "CartTest.java"
  lineStarts := some [0, 10]
  length := some 0xFFFFFFFFFFFFFFFF
  nodes := #[⟨.compilationUnit, ⟨0, 0⟩, [⟨1⟩]⟩, ⟨.other, ⟨0xFFFFFFFFFFFFFFFE, 5⟩, []⟩]

theorem exists_vastFile : ∃ unit, vastFile.validate = .ok unit ∧
    ofStarts? [0, 10] 0xFFFFFFFFFFFFFFFF = some unit.lines ∧ unit.lines = ⟨[0, 10], 0xFFFFFFFFFFFFFFFF⟩ ∧
    unit.node? ⟨1⟩ = some ⟨.other, ⟨0xFFFFFFFFFFFFFFFE, 5⟩, []⟩ := by
  obtain ⟨unit, valid, seen⟩ := Draft.exists_of_validate_map (show (vastFile.validate.map fun unit =>
    (unit.lines, unit.node? ⟨1⟩)) =
    .ok (⟨[0, 10], 0xFFFFFFFFFFFFFFFF⟩, some ⟨.other, ⟨0xFFFFFFFFFFFFFFFE, 5⟩, []⟩) by decide +kernel)
  obtain ⟨lines, found⟩ := Prod.mk.inj seen
  refine ⟨unit, valid, ?_, lines, found⟩
  rw [lines]
  decide +kernel

theorem words_compute_exactly_vastFile : ∃ unit, vastFile.validate = .ok unit ∧
    ofStarts? [0, 10] 0xFFFFFFFFFFFFFFFF = some unit.lines ∧ [0, 10].length < UInt64.size ∧
    (∃ position start, unit.lines.position? 42 = some position ∧ unit.lines.OnLine position.line.toNat start 42 ∧
      position.column.toNat = 42 - start.toNat + 1) ∧
    unit.lines.offset? ⟨2, 33⟩ = some 42 ∧
    ∃ d, (Rule.selfInvocation .error).place unit ⟨⟨1⟩, .error, "look", none⟩ = .ok d := by
  obtain ⟨unit, valid, accepted, lines, found⟩ := exists_vastFile
  have fewer : [0, 10].length < UInt64.size := by decide
  obtain ⟨positions, offsets, places⟩ := words_compute_exactly accepted fewer
  refine ⟨unit, valid, accepted, fewer, ?_, ?_, ?_⟩
  · obtain ⟨position, start, isPosition, onLine, column | ⟨-, top, -⟩⟩ := positions 42 (by decide)
    · exact ⟨position, start, isPosition, onLine, column⟩
    · exact absurd top (by decide)
  · refine (offsets ⟨2, 33⟩ 42).mpr ?_
    rw [lines]
    exact ⟨by decide, by decide, by decide, by decide, 10, rfl, .inl rfl⟩
  · exact (places unit _ _ rfl).mpr ⟨_, found, .inr rfl⟩

/-- A column of 0, an offset in front of its line, and a place for a node that ends beyond its file. -/
theorem words_wrap_at_top :
    (∃ index, ofStarts? [0] 0xFFFFFFFFFFFFFFFF = some index ∧
      index.position? 0xFFFFFFFFFFFFFFFF = some ⟨1, 0⟩) ∧
    (∃ index, ofStarts? [0, 10] 20 = some index ∧ index.lineStart? 2 = some 10 ∧
      index.offset? ⟨2, 0xFFFFFFFFFFFFFFFF⟩ = some 8 ∧ 20 < 10 + ((0xFFFFFFFFFFFFFFFF : UInt64).toNat - 1)) ∧
    ∃ unit node d, vastFile.validate = .ok unit ∧ ofStarts? [0, 10] 0xFFFFFFFFFFFFFFFF = some unit.lines ∧
      unit.node? ⟨1⟩ = some node ∧ unit.lines.length.toNat < node.span.start.toNat + node.span.len.toNat ∧
      (Rule.selfInvocation .error).place unit ⟨⟨1⟩, .error, "look", none⟩ = .ok d := by
  refine ⟨⟨⟨[0], 0xFFFFFFFFFFFFFFFF⟩, by decide +kernel, by decide +kernel⟩,
    ⟨⟨[0, 10], 20⟩, by decide +kernel, rfl, by decide +kernel, by decide⟩, ?_⟩
  obtain ⟨unit, valid, accepted, lines, found⟩ := exists_vastFile
  have fewer : unit.lines.lineCount < UInt64.size := by
    rw [lines]
    decide
  have decided := Rule.exists_place_iff (ofStarts?_eq_some.mp accepted).2 fewer
  obtain ⟨d, placed⟩ := (decided (.selfInvocation .error) ⟨⟨1⟩, .error, "look", none⟩).mpr
    ⟨_, found, .inr (by rw [lines]; rfl)⟩
  refine ⟨unit, _, d, valid, accepted, found, ?_, placed⟩
  rw [lines]
  decide

end LineIndex
end MockAudit
