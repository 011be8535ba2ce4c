import MockAudit.Text.LineIndex
import Mathlib.Data.List.Chain
import Mathlib.Data.List.DropRight

namespace MockAudit.LineIndex

variable {index : LineIndex} {starts : List UInt64} {line : Nat} {start offset : UInt64}

/-! ## Acceptable starts -/

theorem increasing_iff : increasing starts ↔ starts.Pairwise (· < ·) := by
  rw [← List.isChain_iff_pairwise]
  induction starts with
  | nil => simp [increasing]
  | cons first rest ih =>
      cases rest with
      | nil => simp [increasing]
      | cons second rest => simp [increasing, ih]

theorem accepts_iff {length : UInt64} : accepts starts length ↔
    starts[0]? = some 0 ∧ starts.Pairwise (· < ·) ∧ ∀ start ∈ starts, start ≤ length := by
  simp [accepts, increasing_iff, and_assoc, List.head?_eq_getElem?]

theorem reached_iff (ordered : starts.Pairwise (· < ·)) {position : Nat} (found : starts[position]? = some start) :
    start ≤ offset ↔ position < starts.countP (· ≤ offset) := by
  induction starts generalizing position with
  | nil => simp at found
  | cons first rest ih =>
      obtain ⟨below, orderedRest⟩ := List.pairwise_cons.mp ordered
      have none (late : ¬ first ≤ offset) : rest.countP (· ≤ offset) = 0 := by
        rw [List.countP_eq_zero]
        intro later member
        simpa using UInt64.lt_trans (UInt64.not_le.mp late) (below later member)
      cases position with
      | zero =>
          obtain rfl : first = start := by simpa using found
          by_cases early : first ≤ offset <;> simp [early, none]
      | succ position =>
          rw [List.getElem?_cons_succ] at found
          by_cases early : first ≤ offset
          · simp [early, ih orderedRest found]
          · have late := UInt64.lt_trans (UInt64.not_le.mp early) (below start (List.mem_of_getElem? found))
            simp [early, none, UInt64.not_le.mpr late]

theorem le_toNat_start (ordered : starts.Pairwise (· < ·)) {position : Nat} (found : starts[position]? = some start) :
    position ≤ start.toNat := by
  induction position generalizing start with
  | zero => exact Nat.zero_le _
  | succ position ih =>
      obtain ⟨inside, rfl⟩ := List.getElem?_eq_some_iff.mp found
      have before := ih (List.getElem?_eq_getElem (by omega))
      have step := List.pairwise_iff_getElem.mp ordered position (position + 1) (by omega) inside (by omega)
      rw [UInt64.lt_iff_toNat_lt] at step
      omega

theorem lineCount_le (accepted : accepts index.starts index.length) : index.lineCount ≤ index.length.toNat + 1 := by
  obtain ⟨first, ordered, within⟩ := accepts_iff.mp accepted
  obtain ⟨nonempty, -⟩ := List.getElem?_eq_some_iff.mp first
  have last : index.lineCount - 1 < index.starts.length := by unfold lineCount; omega
  have below := le_toNat_start ordered (List.getElem?_eq_getElem last)
  have inside := UInt64.le_iff_toNat_le.mp (within _ (List.getElem_mem last))
  omega

/-! ## The line of an offset -/

structure OnLine (index : LineIndex) (line : Nat) (start offset : UInt64) : Prop where
  starts : index.lineStart? line = some start
  reached : start ≤ offset
  before : ∀ next, index.lineStart? (line + 1) = some next → offset < next

theorem lineStart?_succ (position : Nat) : index.lineStart? (position + 1) = index.starts[position]? := by
  simp [lineStart?]

theorem line_inRange (found : index.lineStart? line = some start) : 1 ≤ line ∧ line ≤ index.lineCount := by
  cases line with
  | zero => simp [lineStart?] at found
  | succ position =>
      rw [lineStart?_succ] at found
      obtain ⟨inside, -⟩ := List.getElem?_eq_some_iff.mp found
      exact ⟨Nat.succ_pos position, inside⟩

theorem onLine_iff (accepted : accepts index.starts index.length) :
    index.OnLine line start offset ↔
      line = index.starts.countP (· ≤ offset) ∧ index.lineStart? line = some start := by
  obtain ⟨-, ordered, -⟩ := accepts_iff.mp accepted
  constructor
  · intro onLine
    refine ⟨?_, onLine.starts⟩
    cases line with
    | zero => simpa [lineStart?] using onLine.starts
    | succ position =>
        have found := onLine.starts
        rw [lineStart?_succ] at found
        have enough := (reached_iff ordered found).mp onLine.reached
        -- Were there more starts at or before the offset, the next line would start there.
        by_contra other
        have more : position + 1 < index.starts.countP (· ≤ offset) := by omega
        have inside : position + 1 < index.starts.length := more.trans_le List.countP_le_length
        have next := List.getElem?_eq_getElem inside
        have late := onLine.before _ (by rw [lineStart?_succ]; exact next)
        exact UInt64.not_le.mpr late ((reached_iff ordered next).mpr more)
  · rintro ⟨rfl, found⟩
    refine ⟨found, ?_, ?_⟩
    · cases counted : index.starts.countP (· ≤ offset) with
      | zero => simp [counted, lineStart?] at found
      | succ position =>
          rw [counted, lineStart?_succ] at found
          exact (reached_iff ordered found).mpr (by omega)
    · intro next foundNext
      rw [lineStart?_succ] at foundNext
      exact UInt64.not_le.mp fun early => Nat.lt_irrefl _ ((reached_iff ordered foundNext).mp early)

theorem exists_onLine (accepted : accepts index.starts index.length) (offset : UInt64) :
    ∃ start, index.OnLine (index.starts.countP (· ≤ offset)) start offset := by
  obtain ⟨first, ordered, -⟩ := accepts_iff.mp accepted
  have positive := (reached_iff ordered first).mp (UInt64.zero_le (a := offset))
  have atMost : index.starts.countP (· ≤ offset) ≤ index.starts.length := List.countP_le_length
  obtain ⟨position, counted⟩ : ∃ position, index.starts.countP (· ≤ offset) = position + 1 :=
    Nat.exists_eq_succ_of_ne_zero (by omega)
  have inside : position < index.starts.length := by omega
  refine ⟨index.starts[position], (onLine_iff accepted).mpr ⟨rfl, ?_⟩⟩
  rw [counted, lineStart?_succ, List.getElem?_eq_getElem inside]

/-! ## Positions -/

theorem toNat_column (reached : start ≤ offset) :
    (offset - start + 1).toNat = (offset.toNat - start.toNat + 1) % UInt64.size := by
  rw [UInt64.toNat_add, UInt64.toNat_sub_of_le _ _ reached, UInt64.toNat_one]

theorem position?_of_onLine (accepted : accepts index.starts index.length) (fewer : index.lineCount < UInt64.size)
    (onLine : index.OnLine line start offset) (inside : offset ≤ index.length) :
    (UInt64.ofNat line).toNat = line ∧ index.position? offset = some ⟨.ofNat line, offset - start + 1⟩ := by
  obtain ⟨counted, found⟩ := (onLine_iff accepted).mp onLine
  have number : (UInt64.ofNat line).toNat = line := by
    have bound := (line_inRange found).2
    exact UInt64.toNat_ofNat_of_lt' (by omega)
  refine ⟨number, ?_⟩
  simp [position?, UInt64.not_lt.mpr inside, ← counted, number, found]

theorem exists_position? (accepted : accepts index.starts index.length)
    (small : index.length.toNat + 1 < UInt64.size) (onLine : index.OnLine line start offset)
    (inside : offset ≤ index.length) :
    ∃ position, index.position? offset = some position ∧ position.line.toNat = line ∧
      offset.toNat + 1 = start.toNat + position.column.toNat := by
  have bound := lineCount_le accepted
  obtain ⟨number, found⟩ := position?_of_onLine accepted (by omega) onLine inside
  have reached := UInt64.le_iff_toNat_le.mp onLine.reached
  have insideNat := UInt64.le_iff_toNat_le.mp inside
  have column : (offset - start + 1).toNat = offset.toNat - start.toNat + 1 := by
    rw [toNat_column onLine.reached]
    exact Nat.mod_eq_of_lt (by omega)
  exact ⟨_, found, number, by rw [column]; omega⟩

theorem position?_eq_some (accepted : accepts index.starts index.length)
    (small : index.length.toNat + 1 < UInt64.size) {position : Position} :
    index.position? offset = some position ↔ offset ≤ index.length ∧
      ∃ start, index.OnLine position.line.toNat start offset ∧
        offset.toNat + 1 = start.toNat + position.column.toNat := by
  constructor
  · intro found
    have inside : offset ≤ index.length := by
      by_contra beyond
      simp [position?, UInt64.not_le.mp beyond] at found
    obtain ⟨start, onLine⟩ := exists_onLine accepted offset
    obtain ⟨other, foundToo, number, column⟩ := exists_position? accepted small onLine inside
    obtain rfl : position = other := Option.some.inj (found.symm.trans foundToo)
    exact ⟨inside, start, by rw [number]; exact onLine, column⟩
  · rintro ⟨inside, start, onLine, column⟩
    obtain ⟨other, found, number, columnToo⟩ := exists_position? accepted small onLine inside
    have sameLine : other.line = position.line := UInt64.toNat_inj.mp number
    have sameColumn : other.column = position.column := UInt64.toNat_inj.mp (by omega)
    rw [found, Option.some.injEq, Position.mk.injEq]
    exact ⟨sameLine, sameColumn⟩

theorem position?_eq_none (accepted : accepts index.starts index.length)
    (small : index.length.toNat + 1 < UInt64.size) : index.position? offset = none ↔ index.length < offset := by
  refine ⟨fun missing => ?_, fun beyond => by simp [position?, beyond]⟩
  by_contra inside
  obtain ⟨start, onLine⟩ := exists_onLine accepted offset
  obtain ⟨position, found, -⟩ := exists_position? accepted small onLine (UInt64.not_lt.mp inside)
  simp [missing] at found

/-! ## The scanned index -/

def startPositions (source : String) : List Nat :=
  0 :: ((List.range source.utf8ByteSize).filter fun position =>
    source.toUTF8.data.toList[position]? = some 10).map (· + 1)

theorem startsAfter_eq (offset : Nat) (bytes : List UInt8) :
    startsAfter offset bytes = ((List.range bytes.length).filter fun position => bytes[position]? = some 10).map
      fun position => UInt64.ofNat (offset + position + 1) := by
  induction bytes generalizing offset with
  | nil => rfl
  | cons byte bytes ih =>
      have rest : startsAfter (offset + 1) bytes = (((List.range bytes.length).map Nat.succ).filter
          fun position => (byte :: bytes)[position]? = some 10).map
            fun position => UInt64.ofNat (offset + position + 1) := by
        rw [ih, List.filter_map, List.map_map]
        simp only [Function.comp_def, Nat.succ_eq_add_one, List.getElem?_cons_succ]
        apply List.map_congr_left
        intro position _
        congr 1
        omega
      rw [startsAfter, rest, List.length_cons, List.range_succ_eq_map]
      by_cases newline : byte = 10 <;> simp [newline]

theorem ofSource_eq_positions (source : String) :
    ofSource source = ⟨(startPositions source).map UInt64.ofNat, UInt64.ofNat source.utf8ByteSize⟩ := by
  simp [ofSource, startPositions, startsAfter_eq, Function.comp_def]

theorem increasing_startsAfter {last offset : Nat} {bytes : List UInt8} (below : last ≤ offset)
    (small : offset + bytes.length < UInt64.size) : increasing (.ofNat last :: startsAfter offset bytes) := by
  induction bytes generalizing last offset with
  | nil => rfl
  | cons byte bytes ih =>
      rw [List.length_cons] at small
      rw [startsAfter]
      split
      · have above : UInt64.ofNat last < UInt64.ofNat (offset + 1) := by
          rw [UInt64.ofNat_lt_iff_lt (by omega) (by omega)]
          omega
        simp only [increasing, above, decide_true, Bool.true_and]
        exact ih (Nat.le_refl _) (by omega)
      · exact ih (by omega) (by omega)

theorem startsAfter_le {offset : Nat} {bytes : List UInt8} (small : offset + bytes.length < UInt64.size)
    {start : UInt64} (member : start ∈ startsAfter offset bytes) : start ≤ .ofNat (offset + bytes.length) := by
  rw [startsAfter_eq] at member
  obtain ⟨position, inside, rfl⟩ := List.mem_map.mp member
  have bound := List.mem_range.mp (List.mem_of_mem_filter inside)
  rw [UInt64.ofNat_le_iff_le (by omega) small]
  omega

theorem accepts_ofSource {source : String} (small : source.utf8ByteSize < UInt64.size) :
    accepts (ofSource source).starts (ofSource source).length := by
  have total : 0 + source.toUTF8.data.toList.length < UInt64.size := by
    rw [Nat.zero_add]
    exact small
  have within : ∀ start ∈ startsAfter 0 source.toUTF8.data.toList, start ≤ .ofNat source.utf8ByteSize := by
    intro start member
    have bound := startsAfter_le total member
    rw [Nat.zero_add] at bound
    exact bound
  have ordered := increasing_startsAfter (Nat.le_refl 0) total
  simp only [accepts, Bool.and_eq_true, List.all_eq_true]
  refine ⟨⟨rfl, ordered⟩, ?_⟩
  intro start member
  apply decide_eq_true
  rcases List.mem_cons.mp member with rfl | later
  · exact UInt64.zero_le
  · exact within start later

/-! ## Lines and columns of a text -/

theorem startsAfter_append (offset : Nat) (before after : List UInt8) :
    startsAfter offset (before ++ after) =
      startsAfter offset before ++ startsAfter (offset + before.length) after := by
  induction before generalizing offset with
  | nil => rfl
  | cons byte before ih =>
      have reordered : offset + 1 + before.length = offset + (before.length + 1) := by omega
      by_cases newline : byte = 10 <;> simp [startsAfter, newline, ih, reordered]

theorem length_startsAfter (offset : Nat) (bytes : List UInt8) :
    (startsAfter offset bytes).length = bytes.count 10 := by
  induction bytes generalizing offset with
  | nil => rfl
  | cons byte bytes ih => by_cases newline : byte = 10 <;> simp [startsAfter, newline, ih]

def lastLine (bytes : List UInt8) : List UInt8 := bytes.rtakeWhile (· ≠ 10)

theorem getElem?_startsAfter_last (bytes : List UInt8) :
    (0 :: startsAfter 0 bytes)[bytes.count 10]? = some (.ofNat (bytes.length - (lastLine bytes).length)) := by
  induction bytes using List.reverseRecOn with
  | nil => rfl
  | append_singleton bytes byte ih =>
      rw [startsAfter_append, List.count_append]
      by_cases newline : byte = 10
      · simp [newline, startsAfter, lastLine, length_startsAfter]
      · simp only [lastLine] at ih
        simp [newline, startsAfter, lastLine, ih]

theorem lt_of_mem_startsAfter {position : Nat} {bytes : List UInt8} (small : position + bytes.length < UInt64.size)
    {start : UInt64} (member : start ∈ startsAfter position bytes) : .ofNat position < start := by
  rw [startsAfter_eq] at member
  obtain ⟨further, inside, rfl⟩ := List.mem_map.mp member
  have bound := List.mem_range.mp (List.mem_of_mem_filter inside)
  rw [UInt64.ofNat_lt_iff_lt (by omega) (by omega)]
  omega

theorem ofSource_starts_eq (source : String) {position : Nat} (inside : position ≤ source.utf8ByteSize) :
    (ofSource source).starts = (0 :: startsAfter 0 (source.toUTF8.data.toList.take position)) ++
      startsAfter position (source.toUTF8.data.toList.drop position) := by
  have taken : (source.toUTF8.data.toList.take position).length = position := List.length_take_of_le inside
  have cut := startsAfter_append 0 (source.toUTF8.data.toList.take position) (source.toUTF8.data.toList.drop position)
  rw [List.take_append_drop, taken, Nat.zero_add] at cut
  rw [ofSource, cut, List.cons_append]

theorem onLine_ofSource {source : String} (small : source.utf8ByteSize < UInt64.size)
    (inside : offset.toNat ≤ source.utf8ByteSize) :
    let before := source.toUTF8.data.toList.take offset.toNat
    (ofSource source).OnLine (before.count 10 + 1) (.ofNat (offset.toNat - (lastLine before).length)) offset := by
  intro before
  let after := source.toUTF8.data.toList.drop offset.toNat
  have taken : before.length = offset.toNat := List.length_take_of_le inside
  have rest : offset.toNat + after.length = source.utf8ByteSize := by
    rw [List.length_drop]
    exact Nat.add_sub_of_le inside
  have cut : (ofSource source).starts = (0 :: startsAfter 0 before) ++ startsAfter offset.toNat after :=
    ofSource_starts_eq source inside
  have upTo : (0 :: startsAfter 0 before).length = before.count 10 + 1 := by
    rw [List.length_cons, length_startsAfter]
  refine ⟨?_, ?_, ?_⟩
  · rw [lineStart?_succ, cut, List.getElem?_append_left (by omega), getElem?_startsAfter_last, taken]
  · rw [UInt64.le_iff_toNat_le, UInt64.toNat_ofNat_of_lt' (by omega)]
    exact Nat.sub_le _ _
  · intro next found
    rw [lineStart?_succ, cut, List.getElem?_append_right (by omega)] at found
    have later := lt_of_mem_startsAfter (by omega) (List.mem_of_getElem? found)
    rwa [UInt64.ofNat_toNat] at later

theorem lineCount_ofSource (source : String) :
    (ofSource source).lineCount = 1 + source.toUTF8.data.toList.count 10 := by
  rw [lineCount, ofSource, List.length_cons, length_startsAfter, Nat.add_comm]

/-- The line of an offset is one more than the newline bytes before it, its column one more than the bytes since the
last of them. Columns are 64-bit words, so a text has fewer than 2⁶⁴ - 1 bytes. -/
theorem position?_ofSource {source : String} (small : source.utf8ByteSize + 1 < UInt64.size) (offset : UInt64) :
    ((ofSource source).position? offset).map (fun position => (position.line.toNat, position.column.toNat)) =
      (if source.utf8ByteSize < offset.toNat then none
      else
        let before := source.toUTF8.data.toList.take offset.toNat
        some (1 + before.count 10, 1 + (lastLine before).length)) ∧
    (ofSource source).lineCount = 1 + source.toUTF8.data.toList.count 10 := by
  refine ⟨?_, lineCount_ofSource source⟩
  have accepted : accepts (ofSource source).starts (ofSource source).length := accepts_ofSource (by omega)
  have length : (ofSource source).length.toNat = source.utf8ByteSize := UInt64.toNat_ofNat_of_lt' (by omega)
  split
  · rename_i beyond
    have missing : (ofSource source).position? offset = none := by
      rw [position?_eq_none accepted (by omega), UInt64.lt_iff_toNat_lt, length]
      exact beyond
    rw [missing, Option.map_none]
  · rename_i notBeyond
    have inside : offset.toNat ≤ source.utf8ByteSize := by omega
    have onLine := onLine_ofSource (by omega) inside
    obtain ⟨position, found, number, column⟩ := exists_position? accepted (by omega) onLine
      (by rw [UInt64.le_iff_toNat_le, length]; exact inside)
    have taken : (source.toUTF8.data.toList.take offset.toNat).length = offset.toNat := List.length_take_of_le inside
    have part : (lastLine (source.toUTF8.data.toList.take offset.toNat)).length ≤ offset.toNat :=
      (List.rtakeWhile_suffix _ _).length_le.trans_eq taken
    rw [UInt64.toNat_ofNat_of_lt' (by omega)] at column
    rw [found, Option.map_some, Option.some.injEq, Prod.mk.injEq]
    exact ⟨by omega, by omega⟩

theorem position?_ofSource_twoLines : "a\nfür\n".utf8ByteSize + 1 < UInt64.size ∧
    ((ofSource "a\nfür\n").position? 4).map (fun position => (position.line.toNat, position.column.toNat)) =
      some (2, 3) ∧
    ((ofSource "a\nfür\n").position? 7).map (fun position => (position.line.toNat, position.column.toNat)) =
      some (3, 1) ∧
    ((ofSource "a\nfür\n").position? 8).map (fun position => (position.line.toNat, position.column.toNat)) =
      none ∧
    (ofSource "a\nfür\n").lineCount = 3 := by
  have small : "a\nfür\n".utf8ByteSize + 1 < UInt64.size := by decide +kernel
  refine ⟨small, (position?_ofSource small 4).1.trans ?_, (position?_ofSource small 7).1.trans ?_,
    (position?_ofSource small 8).1.trans ?_, (position?_ofSource small 0).2.trans ?_⟩
  all_goals decide +kernel

end MockAudit.LineIndex
