import MockAudit.Workspace.Path
import Mathlib.Data.List.Infix
import Mathlib.Data.Prod.Lex
import Mathlib.Data.String.Basic

namespace MockAudit

variable {separator : Char} {text : List Char}

/-! ## Pieces -/

theorem pieces_ne_nil : pieces separator text ≠ [] := by
  fun_cases pieces separator text <;> simp

theorem pieces_cons_of_ne {c : Char} (other : c ≠ separator) {piece : List Char} {more : List (List Char)}
    (split : pieces separator text = piece :: more) :
    pieces separator (c :: text) = (c :: piece) :: more := by
  simp [pieces, other, split]

theorem pieces_of_not_mem (absent : separator ∉ text) : pieces separator text = [text] := by
  induction text with
  | nil => rfl
  | cons c rest ih =>
      obtain ⟨other, absent⟩ := not_or.mp (List.mem_cons.not.mp absent)
      exact pieces_cons_of_ne (Ne.symm other) (ih absent)

theorem pieces_append_separator (front back : List Char) :
    pieces separator (front ++ separator :: back) = pieces separator front ++ pieces separator back := by
  induction front with
  | nil => simp [pieces]
  | cons c rest ih =>
      by_cases same : c = separator
      · simp [pieces, same, ih]
      · obtain ⟨piece, more, split⟩ := List.exists_cons_of_ne_nil (@pieces_ne_nil separator rest)
        rw [pieces_cons_of_ne same split, List.cons_append, pieces_cons_of_ne same (by rw [ih, split]; rfl)]
        rfl

theorem not_mem_of_mem_pieces {piece : List Char} (member : piece ∈ pieces separator text) : separator ∉ piece := by
  induction text generalizing piece with
  | nil => simp_all [pieces]
  | cons c rest ih =>
      obtain ⟨first, more, split⟩ := List.exists_cons_of_ne_nil (@pieces_ne_nil separator rest)
      by_cases same : c = separator
      · simp only [pieces, same, ↓reduceIte, List.mem_cons] at member
        rcases member with rfl | member
        · exact List.not_mem_nil
        · exact ih member
      · rw [pieces_cons_of_ne same split, List.mem_cons] at member
        rcases member with rfl | member
        · have absent := @ih first (by simp [split])
          simp [absent, Ne.symm same]
        · exact ih (by simp [split, member])

namespace Path

/-! ## Segments -/

theorem segments_ne_nil (path : Path) : path.segments ≠ [] := by
  simp [segments, splitText, pieces_ne_nil]

theorem slash_not_mem_of_mem_segments {path : Path} {segment : String} (member : segment ∈ path.segments) :
    '/' ∉ segment.toList := by
  obtain ⟨piece, inside, rfl⟩ := List.mem_map.mp member
  simpa using not_mem_of_mem_pieces inside

theorem segments_of_slash_not_mem {name : String} (absent : '/' ∉ name.toList) : segments name = [name] := by
  simp [segments, splitText, pieces_of_not_mem absent]

theorem segments_append_slash (front back : String) :
    segments (front ++ "/" ++ back) = segments front ++ segments back := by
  simp [segments, splitText, pieces_append_separator]

theorem segments_intercalate {parts : List String} (some : parts ≠ []) (plain : ∀ part ∈ parts, '/' ∉ part.toList) :
    segments (String.intercalate "/" parts) = parts := by
  induction parts with
  | nil => contradiction
  | cons first rest ih =>
      have alone : segments first = [first] := segments_of_slash_not_mem (plain first (by simp))
      cases rest with
      | nil => simpa using alone
      | cons second rest =>
          rw [String.intercalate_cons_cons, segments_append_slash, alone,
            ih (by simp) fun part member => plain part (by simp [member])]
          rfl

theorem isAbsolute_iff (path : Path) :
    path.isAbsolute = true ↔ path.segments.head? = some "" ∧ path.segments.length ≠ 1 := by
  simp only [isAbsolute, segments, splitText, List.length_map, List.head?_map]
  cases path.toList with
  | nil => decide
  | cons c rest =>
      obtain ⟨piece, more, split⟩ := List.exists_cons_of_ne_nil (@pieces_ne_nil '/' rest)
      by_cases slash : c = '/'
      · simp [pieces, slash, split]
      · simp [slash, pieces_cons_of_ne slash split, ← String.toList_inj]

/-! ## Steps -/

def isIdle (segment : String) : Bool := segment = "" ∨ segment = "."

def steps (path : Path) : List String := path.segments.filter (!isIdle ·)

def IsFileName (name : String) : Prop := name ≠ "" ∧ name ≠ "." ∧ name ≠ ".." ∧ '/' ∉ name.toList

instance : DecidablePred IsFileName := fun _ => inferInstanceAs (Decidable (_ ∧ _ ∧ _ ∧ _))

namespace IsFileName
variable {name : String}

theorem segments_eq (valid : IsFileName name) : segments name = [name] := segments_of_slash_not_mem valid.2.2.2

theorem isAbsolute_eq_false (valid : IsFileName name) : isAbsolute name = false := by
  simp [← Bool.not_eq_true, isAbsolute_iff, valid.segments_eq]

theorem laterComponent?_eq (valid : IsFileName name) : laterComponent? name = some (.normal name) := by
  simp [laterComponent?, valid.1, valid.2.1, valid.2.2.1]

end IsFileName

/-! ## A path that continues another one -/

theorem join_of_relative (base : Path) {path : Path} (relative : path.isAbsolute = false) :
    (base = "" ∧ base.join path = path) ∨
      (∃ front : String, base = front ++ "/" ∧ base.join path = front ++ "/" ++ path) ∨
      (base ≠ "" ∧ base.join path = base ++ "/" ++ path) := by
  by_cases empty : base = ""
  · exact .inl ⟨empty, by simp [join, relative, empty]⟩
  · by_cases slash : base.toList.getLast? = some '/'
    · obtain ⟨front, ends⟩ := List.getLast?_eq_some_iff.mp slash
      have written : base = String.ofList front ++ "/" := by simp [← String.toList_inj, ends]
      exact .inr (.inl ⟨String.ofList front, written, by simp [join, relative, slash, ← written]⟩)
    · exact .inr (.inr ⟨empty, by simp [join, relative, slash, empty]⟩)

theorem segments_join {base path : Path} (relative : path.isAbsolute = false) (given : base ≠ "") :
    ∃ first front, (base.join path).segments = first :: front ++ path.segments ∧
      (base.segments = first :: front ∨ base.segments = first :: front ++ [""]) := by
  rcases join_of_relative base relative with ⟨empty, -⟩ | ⟨front, written, joined⟩ | ⟨-, joined⟩
  · contradiction
  · obtain ⟨first, more, split⟩ := List.exists_cons_of_ne_nil (segments_ne_nil front)
    refine ⟨first, more, by rw [joined, segments_append_slash, split], .inr ?_⟩
    have ended := segments_append_slash front ""
    rw [String.append_empty, ← written, split] at ended
    exact ended
  · obtain ⟨first, more, split⟩ := List.exists_cons_of_ne_nil (segments_ne_nil base)
    exact ⟨first, more, by rw [joined, segments_append_slash, split], .inl split⟩

theorem segments_suffix_join (base path : Path) : path.segments <:+ (base.join path).segments := by
  by_cases absolute : path.isAbsolute = true
  · simp [join, absolute]
  · have relative : path.isAbsolute = false := by simpa using absolute
    by_cases empty : base = ""
    · simp [join, relative, empty]
    · obtain ⟨first, front, joined, -⟩ := segments_join relative empty
      exact ⟨first :: front, joined.symm⟩

theorem isAbsolute_join {base path : Path} (relative : path.isAbsolute = false) :
    (base.join path).isAbsolute = base.isAbsolute := by
  rcases join_of_relative base relative with ⟨rfl, joined⟩ | ⟨front, rfl, joined⟩ | ⟨given, joined⟩
  · rw [joined, relative]; rfl
  · simp [joined, isAbsolute, List.head?_append]
  · obtain ⟨c, text, starts⟩ := List.exists_cons_of_ne_nil (String.toList_eq_nil_iff.not.mpr given)
    simp [joined, isAbsolute, starts]

theorem steps_join (base : Path) {path : Path} (relative : path.isAbsolute = false) :
    (base.join path).steps = base.steps ++ path.steps := by
  by_cases empty : base = ""
  · have none : steps "" = [] := by decide
    simp [join, relative, empty, none]
  · obtain ⟨first, front, joined, before⟩ := segments_join relative empty
    have idle : isIdle "" = true := by decide
    rcases before with before | before
    · rw [steps, joined, List.filter_append, ← before]; rfl
    · rw [steps, steps, joined, before, List.filter_append, List.filter_append]
      simp [idle, steps]

theorem join_ne_empty {base path : Path} (given : path ≠ "") : base.join path ≠ "" := by
  unfold join
  split_ifs <;> simp [given]

theorem components_join {base : Path} {name : String} (valid : IsFileName name) (given : base ≠ "") :
    (base.join name).components = base.components ++ [.normal name] := by
  have relative := valid.isAbsolute_eq_false
  obtain ⟨first, front, joined, before⟩ := segments_join relative given
  have start : (base.join name).firstComponent? first = base.firstComponent? first := by
    simp [firstComponent?, isAbsolute_join relative]
  have idle : laterComponent? "" = none := by decide
  rw [valid.segments_eq] at joined
  rcases before with before | before <;>
    simp [components, joined, before, start, idle, valid.laterComponent?_eq]

/-! ## Parents -/

theorem dropIdle_suffix (reversed : List String) : dropIdle reversed <:+ reversed := by
  fun_induction dropIdle reversed with
  | case1 => exact List.suffix_rfl
  | case2 => exact List.suffix_rfl
  | case3 last rest _ idle ih => exact ih.trans (List.suffix_cons last rest)
  | case4 => exact List.suffix_rfl

theorem dropIdle_ne_nil {reversed : List String} (given : reversed ≠ []) : dropIdle reversed ≠ [] := by
  fun_induction dropIdle reversed with
  | case1 => contradiction
  | case2 => simp
  | case3 last rest more idle ih => exact ih more
  | case4 => simp

theorem getLast?_dropIdle (reversed : List String) : (dropIdle reversed).getLast? = reversed.getLast? := by
  fun_induction dropIdle reversed with
  | case1 => rfl
  | case2 => rfl
  | case3 last rest more idle ih => rw [ih, List.getLast?_cons_of_ne_nil more]
  | case4 => rfl

theorem filter_dropIdle (reversed : List String) :
    (dropIdle reversed).filter (!isIdle ·) = reversed.filter (!isIdle ·) := by
  fun_induction dropIdle reversed with
  | case1 => rfl
  | case2 => rfl
  | case3 last rest more idle ih =>
      have skipped : isIdle last = true := by simpa [isIdle] using idle
      simp [ih, skipped]
  | case4 => rfl

theorem isIdle_of_dropIdle {reversed rest : List String} {last : String} (dropped : dropIdle reversed = last :: rest)
    (more : rest ≠ []) : isIdle last = false := by
  fun_induction dropIdle reversed with
  | case1 => contradiction
  | case2 => simp_all
  | case3 _ _ _ _ ih => exact ih dropped
  | case4 => simp_all [isIdle]

section OfSegments
variable {parts : List String} (given : parts ≠ []) (plain : ∀ part ∈ parts, '/' ∉ part.toList)
include given plain

theorem steps_ofSegments : (ofSegments parts).steps = parts.filter (!isIdle ·) := by
  unfold ofSegments
  split_ifs with top
  · rw [top]; decide
  · rw [steps, segments_intercalate given plain]

theorem isAbsolute_ofSegments : (ofSegments parts).isAbsolute = true ↔ parts.head? = some "" := by
  unfold ofSegments
  split_ifs with top
  · rw [top]; decide
  · rw [isAbsolute_iff, segments_intercalate given plain]
    refine and_iff_left_of_imp fun starts single => top ?_
    obtain ⟨only, rfl⟩ := List.length_eq_one_iff.mp single
    simpa using starts

end OfSegments

theorem steps_eq_reverse_dropIdle (path : Path) :
    path.steps = ((dropIdle path.segments.reverse).filter (!isIdle ·)).reverse := by
  rw [filter_dropIdle, ← List.filter_reverse, List.reverse_reverse, steps]

theorem steps_of_parent?_eq_none {path : Path} (top : path.parent? = none) : path.steps = [] := by
  rw [steps_eq_reverse_dropIdle]
  unfold parent? at top
  split at top
  next nothing => simp [nothing]
  next only single =>
    have empty : only = "" := by simpa using top
    simp [single, empty, isIdle]
  next => simp at top

theorem of_parent?_eq_some {path above : Path} (found : path.parent? = some above) :
    above.isAbsolute = path.isAbsolute ∧ above.steps = path.steps.dropLast := by
  have starts := getLast?_dropIdle path.segments.reverse
  have inside := dropIdle_suffix path.segments.reverse
  rw [steps_eq_reverse_dropIdle path]
  rw [List.getLast?_reverse] at starts
  unfold parent? at found
  split at found
  next => simp at found
  next only single =>
    obtain ⟨given, rfl⟩ : only ≠ "" ∧ "" = above := by simpa using found
    have relative : path.isAbsolute = false := by
      simp [← Bool.not_eq_true, isAbsolute_iff, ← starts, single, given]
    have none : steps "" = [] := by decide
    refine ⟨by rw [relative]; rfl, ?_⟩
    cases idle : isIdle only <;> simp [single, idle, none]
  next last rest single split =>
    have more : rest ≠ [] := single
    obtain rfl : ofSegments (dropIdle rest).reverse = above := by simpa using found
    have given : (dropIdle rest).reverse ≠ [] := by simpa using dropIdle_ne_nil more
    have plain : ∀ part ∈ (dropIdle rest).reverse, '/' ∉ part.toList := by
      intro part member
      have kept : part ∈ rest := (dropIdle_suffix rest).subset (List.mem_reverse.mp member)
      exact slash_not_mem_of_mem_segments (List.mem_reverse.mp (inside.subset (by simp [split, kept])))
    constructor
    · have long : path.segments.length ≠ 1 := by
        have bound := inside.length_le
        have some := List.length_pos_iff.mpr more
        simp only [split, List.length_cons, List.length_reverse] at bound
        omega
      rw [Bool.eq_iff_iff, isAbsolute_ofSegments given plain, isAbsolute_iff, and_iff_left long, ← starts, split,
        List.head?_reverse, getLast?_dropIdle, List.getLast?_cons_of_ne_nil more]
    · have busy := isIdle_of_dropIdle split more
      rw [steps_ofSegments given plain, List.filter_reverse, filter_dropIdle, split]
      simp [busy]

theorem inits_concat_reverse (front : List String) (last : String) :
    (front ++ [last]).inits.reverse = (front ++ [last]) :: front.inits.reverse := by
  simp [List.inits_append]

/-- What is looked for in a path and then in its parents is looked for at its steps, and then with fewer and fewer of
them. The parents may go on after the steps have been used up, but that finds nothing new. -/
theorem findSome?_parentChain {β : Type} {look : Path → Option β} {lookAt : List String → Option β} {path : Path}
    {fuel : Nat} (enough : path.steps.length < fuel)
    (agree : ∀ other : Path, other.isAbsolute = path.isAbsolute → look other = lookAt other.steps) :
    (parentChain fuel (some path)).findSome? look = path.steps.inits.reverse.findSome? lookAt := by
  induction fuel generalizing path with
  | zero => simp at enough
  | succ fuel ih =>
      rw [parentChain, List.findSome?_cons, agree path rfl]
      rcases List.eq_nil_or_concat' path.steps with none | ⟨front, last, split⟩
      · cases here : lookAt [] with
        | some result => simp [none, here]
        | none =>
            have later : (parentChain fuel path.parent?).findSome? look = Option.none := by
              cases above : path.parent? with
              | none => cases fuel <;> rfl
              | some parent =>
                  obtain ⟨kind, steps⟩ := of_parent?_eq_some above
                  cases fuel with
                  | zero => rfl
                  | succ fuel =>
                      rw [ih (by simp [steps, none]) fun other same => agree other (same.trans kind)]
                      simp [steps, none, here]
            simp [none, here, later]
      · cases above : path.parent? with
        | none => simp [steps_of_parent?_eq_none above] at split
        | some parent =>
            obtain ⟨kind, steps⟩ := of_parent?_eq_some above
            have fewer : parent.steps = front := by rw [steps, split, List.dropLast_concat]
            have left : parent.steps.length < fuel := by
              rw [split, List.length_append, List.length_singleton] at enough
              rw [fewer]; omega
            rw [split, inits_concat_reverse, List.findSome?_cons,
              ih left fun other same => agree other (same.trans kind), fewer]

theorem findSome?_ancestors {β : Type} {look : Path → Option β} {lookAt : List String → Option β} {path : Path}
    (agree : ∀ other : Path, other.isAbsolute = path.isAbsolute → look other = lookAt other.steps) :
    path.ancestors.findSome? look = path.steps.inits.reverse.findSome? lookAt := by
  refine findSome?_parentChain ?_ agree
  exact Nat.lt_succ_of_le (List.length_filter_le _ _)

end Path

/-! ## The order of components -/

def Component.key (component : Component) : ℕ ×ₗ String :=
  toLex (component.rank, match component with
    | .normal name => name
    | _ => "")

theorem Component.key_injective : Function.Injective key := by
  rintro (_ | _ | _ | a) (_ | _ | _ | b) same <;> simp_all [key, Component.rank]

theorem Component.before_iff (a b : Component) : a.before b = true ↔ a.key < b.key := by
  cases a <;> cases b <;> simp [Component.before, key, Component.rank, Prod.Lex.toLex_lt_toLex, -String.lt_iff_ltb]

namespace Path

theorem componentsLe_iff (a b : List Component) : componentsLe a b = true ↔ a.map (·.key) ≤ b.map (·.key) := by
  fun_induction componentsLe a b with
  | case1 => simp [← not_lt]
  | case2 a as => simp [← not_lt]
  | case3 a as b bs ih =>
      rw [Bool.or_eq_true, Bool.and_eq_true, Component.before_iff, beq_iff_eq, ih, List.map_cons, List.map_cons,
        ← not_lt, ← not_lt, List.cons_lt_cons_iff, ← Component.key_injective.eq_iff]
      rcases lt_trichotomy a.key b.key with less | same | more
      · simp [less, less.ne', less.not_gt]
      · simp [same]
      · simp [more, more.ne', more.not_gt]

theorem componentsLe_total (a b : List Component) : componentsLe a b || componentsLe b a := by
  rw [Bool.or_eq_true, componentsLe_iff, componentsLe_iff]
  exact le_total _ _

theorem componentsLe_trans {a b c : List Component} (first : componentsLe a b = true)
    (second : componentsLe b c = true) : componentsLe a c = true := by
  rw [componentsLe_iff] at *
  exact first.trans second

theorem componentsLe_antisymm {a b : List Component} (first : componentsLe a b = true)
    (second : componentsLe b a = true) : a = b := by
  rw [componentsLe_iff] at *
  exact Component.key_injective.list_map (first.antisymm second)

end Path
end MockAudit
