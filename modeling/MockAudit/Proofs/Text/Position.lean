import MockAudit.Proofs.Text.LineIndex

namespace MockAudit

def Position.Before (first second : Position) : Prop :=
  first.line < second.line ∨ first.line = second.line ∧ first.column < second.column

namespace LineIndex

variable {index : LineIndex} {line : Nat} {start offset first second : UInt64} {position : Position}

inductive Built : LineIndex → Prop where
  | scanned (source : String) (small : source.utf8ByteSize < UInt64.size) : Built (ofSource source)
  | supplied {starts : List UInt64} {length : UInt64} {index : LineIndex}
      (accepted : ofStarts? starts length = some index) : Built index

theorem ofStarts?_eq_some {starts : List UInt64} {length : UInt64} :
    ofStarts? starts length = some index ↔
      index = ⟨starts, length⟩ ∧ accepts index.starts index.length := by
  unfold ofStarts?
  by_cases accepted : accepts starts length
  · rw [if_pos accepted, Option.some.injEq]
    constructor
    · rintro rfl
      exact ⟨rfl, accepted⟩
    · rintro ⟨rfl, -⟩
      rfl
  · rw [if_neg accepted]
    simp only [reduceCtorEq, false_iff]
    rintro ⟨rfl, acceptedToo⟩
    exact accepted acceptedToo

theorem Built.accepted (built : index.Built) : accepts index.starts index.length := by
  cases built with
  | scanned source small => exact accepts_ofSource small
  | supplied accepted => exact (ofStarts?_eq_some.mp accepted).2

theorem offset?_eq_some : index.offset? position = some offset ↔
    ∃ start, index.lineStart? position.line.toNat = some start ∧ 1 ≤ position.column.toNat ∧
      offset ≤ index.length ∧ offset.toNat = (start.toNat + (position.column.toNat - 1)) % UInt64.size := by
  unfold offset? offsetIn?
  rw [Option.bind_eq_some_iff]
  refine exists_congr fun start => and_congr_right fun _ => ?_
  by_cases first : position.column = 0
  · simp [first]
  · have positive : 1 ≤ position.column.toNat := by
      rw [Nat.one_le_iff_ne_zero, ← UInt64.toNat_zero, Ne, UInt64.toNat_inj]
      exact first
    have sum : (start + (position.column - 1)).toNat =
        (start.toNat + (position.column.toNat - 1)) % UInt64.size := by
      have atLeastOne : 1 ≤ position.column := UInt64.le_iff_toNat_le.mpr (by rwa [UInt64.toNat_one])
      rw [UInt64.toNat_add, UInt64.toNat_sub_of_le _ _ atLeastOne, UInt64.toNat_one]
    rw [if_neg first, ← sum, UInt64.toNat_inj, and_iff_right positive]
    by_cases inside : start + (position.column - 1) ≤ index.length
    · rw [if_pos inside, Option.some.injEq]
      constructor
      · rintro rfl
        exact ⟨inside, rfl⟩
      · rintro ⟨-, rfl⟩
        rfl
    · rw [if_neg inside]
      simp only [reduceCtorEq, false_iff]
      rintro ⟨insideToo, rfl⟩
      exact inside insideToo

theorem offset?_eq_some_of_lt (found : index.lineStart? position.line.toNat = some start)
    (fits : start.toNat + (position.column.toNat - 1) < UInt64.size) :
    index.offset? position = some offset ↔
      1 ≤ position.column.toNat ∧ offset ≤ index.length ∧
        offset.toNat + 1 = start.toNat + position.column.toNat := by
  rw [offset?_eq_some]
  constructor
  · rintro ⟨other, foundToo, positive, inside, sum⟩
    obtain rfl : start = other := Option.some.inj (found.symm.trans foundToo)
    rw [Nat.mod_eq_of_lt fits] at sum
    exact ⟨positive, inside, by omega⟩
  · rintro ⟨positive, inside, sum⟩
    refine ⟨start, found, positive, inside, ?_⟩
    rw [Nat.mod_eq_of_lt fits]
    omega

theorem offset?_of_position? (accepted : accepts index.starts index.length)
    (small : index.length.toNat + 1 < UInt64.size) (found : index.position? offset = some position) :
    index.offset? position = some offset := by
  obtain ⟨inside, start, onLine, sum⟩ := (position?_eq_some accepted small).mp found
  have reached := UInt64.le_iff_toNat_le.mp onLine.reached
  have bound := offset.toNat_lt_size
  rw [offset?_eq_some_of_lt onLine.starts (by omega)]
  exact ⟨by omega, inside, sum⟩

theorem line_le_of_le (accepted : accepts index.starts index.length) {later : Nat} {next : UInt64}
    (le : first ≤ second) (onLine : index.OnLine line start first) (onLater : index.OnLine later next second) :
    line ≤ later := by
  obtain ⟨counted, -⟩ := (onLine_iff accepted).mp onLine
  obtain ⟨countedToo, -⟩ := (onLine_iff accepted).mp onLater
  rw [counted, countedToo]
  apply List.countP_mono_left
  intro start _ reached
  exact decide_eq_true (UInt64.le_trans (of_decide_eq_true reached) le)

theorem before_of_lt (accepted : accepts index.starts index.length) (small : index.length.toNat + 1 < UInt64.size)
    {p q : Position} (isFirst : index.position? first = some p) (isSecond : index.position? second = some q)
    (lt : first < second) : p.Before q := by
  obtain ⟨-, start, onLine, sum⟩ := (position?_eq_some accepted small).mp isFirst
  obtain ⟨-, next, onLater, sumToo⟩ := (position?_eq_some accepted small).mp isSecond
  rcases Nat.lt_or_eq_of_le (line_le_of_le accepted (UInt64.le_of_lt lt) onLine onLater) with earlier | same
  · exact .inl (UInt64.lt_iff_toNat_lt.mpr earlier)
  · obtain rfl : start = next := by
      have starts := onLine.starts
      rw [same, onLater.starts] at starts
      exact (Option.some.inj starts).symm
    refine .inr ⟨UInt64.toNat_inj.mp same, ?_⟩
    rw [UInt64.lt_iff_toNat_lt] at lt ⊢
    omega

def GoesPast (index : LineIndex) (line : Nat) (offset : UInt64) : Prop :=
  line = index.lineCount ∨ ∃ next ∈ index.lineStart? (line + 1), offset < next

instance (index : LineIndex) (line : Nat) (offset : UInt64) : Decidable (index.GoesPast line offset) :=
  inferInstanceAs (Decidable (_ ∨ _))

theorem goesPast_iff (found : index.lineStart? line = some start) :
    index.GoesPast line offset ↔ ∀ next, index.lineStart? (line + 1) = some next → offset < next := by
  obtain ⟨-, atMost⟩ := line_inRange found
  unfold GoesPast
  rw [lineStart?_succ]
  rcases Nat.lt_or_eq_of_le atMost with more | rfl
  · rw [List.getElem?_eq_getElem (show line < index.starts.length from more)]
    simp [Nat.ne_of_lt more]
  · simp [lineCount]

theorem onLine_iff_goesPast (found : index.lineStart? line = some start) (reached : start ≤ offset) :
    index.OnLine line start offset ↔ index.GoesPast line offset := by
  rw [goesPast_iff found]
  exact ⟨fun onLine => onLine.before, fun before => ⟨found, reached, before⟩⟩

theorem lt_of_not_goesPast (accepted : accepts index.starts index.length) {later : Nat} {next : UInt64}
    (found : index.lineStart? line = some start) (ends : ¬ index.GoesPast line offset)
    (onLater : index.OnLine later next offset) : line < later := by
  obtain ⟨-, ordered, -⟩ := accepts_iff.mp accepted
  obtain ⟨counted, -⟩ := (onLine_iff accepted).mp onLater
  rw [goesPast_iff found] at ends
  push Not at ends
  obtain ⟨following, foundNext, reached⟩ := ends
  rw [lineStart?_succ] at foundNext
  rw [counted]
  exact (reached_iff ordered foundNext).mp (UInt64.not_lt.mp reached)

/-- Every offset has a position of its own, and positions come in the order of their offsets. The offset of a position
that exists has that position, unless the column runs past the end of its line. -/
theorem positions_invert_offsets {index : LineIndex} (built : index.Built)
    (small : index.length.toNat + 1 < UInt64.size) :
    (∀ offset ≤ index.length, ∃ position,
      index.position? offset = some position ∧ index.offset? position = some offset) ∧
    (∀ first second p q, index.position? first = some p → index.position? second = some q → first < second →
      p.Before q) ∧
    ∀ position start offset, index.lineStart? position.line.toNat = some start →
      start.toNat + (position.column.toNat - 1) < UInt64.size → index.offset? position = some offset →
      (index.position? offset = some position ↔ index.GoesPast position.line.toNat offset) ∧
      (¬ index.GoesPast position.line.toNat offset →
        ∃ other, index.position? offset = some other ∧ position.line < other.line) := by
  have accepted := built.accepted
  refine ⟨fun offset inside => ?_, fun first second p q => before_of_lt accepted small, ?_⟩
  · obtain ⟨start, onLine⟩ := exists_onLine accepted offset
    obtain ⟨position, found, -⟩ := exists_position? accepted small onLine inside
    exact ⟨position, found, offset?_of_position? accepted small found⟩
  · intro position start offset found fits isOffset
    obtain ⟨positive, inside, sum⟩ := (offset?_eq_some_of_lt found fits).mp isOffset
    have reached : start ≤ offset := by
      rw [UInt64.le_iff_toNat_le]
      omega
    constructor
    · rw [position?_eq_some accepted small, ← onLine_iff_goesPast found reached, and_iff_right inside]
      constructor
      · rintro ⟨other, onLine, -⟩
        obtain rfl : start = other := Option.some.inj (found.symm.trans onLine.starts)
        exact onLine
      · intro onLine
        exact ⟨start, onLine, sum⟩
    · intro ends
      obtain ⟨next, onLater⟩ := exists_onLine accepted offset
      obtain ⟨other, isOther, number, -⟩ := exists_position? accepted small onLater inside
      refine ⟨other, isOther, ?_⟩
      rw [UInt64.lt_iff_toNat_lt, number]
      exact lt_of_not_goesPast accepted found ends onLater

theorem positions_invert_offsets_shortLine : (ofSource "ab\nc").length.toNat + 1 < UInt64.size ∧
    (∃ position, (ofSource "ab\nc").position? 4 = some position ∧ (ofSource "ab\nc").offset? position = some 4) ∧
    Position.Before ⟨1, 3⟩ ⟨2, 1⟩ ∧ (ofSource "ab\nc").offset? ⟨1, 4⟩ = some 3 ∧
    (ofSource "ab\nc").position? 3 ≠ some ⟨1, 4⟩ ∧
    ∃ other, (ofSource "ab\nc").position? 3 = some other ∧ 1 < other.line := by
  have small : (ofSource "ab\nc").length.toNat + 1 < UInt64.size := by decide +kernel
  obtain ⟨defined, ordered, inverse⟩ := positions_invert_offsets (.scanned "ab\nc" (by decide +kernel)) small
  have isOffset : (ofSource "ab\nc").offset? ⟨1, 4⟩ = some 3 := by decide +kernel
  have ends : ¬ (ofSource "ab\nc").GoesPast 1 3 := by decide +kernel
  obtain ⟨same, later⟩ := inverse ⟨1, 4⟩ 0 3 (by decide +kernel) (by decide) isOffset
  refine ⟨small, defined 4 (by decide +kernel), ?_, isOffset, same.not.mpr ends, later ends⟩
  exact ordered 2 3 ⟨1, 3⟩ ⟨2, 1⟩ (by decide +kernel) (by decide +kernel) (by decide)

end LineIndex
end MockAudit
