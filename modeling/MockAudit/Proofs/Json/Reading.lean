import MockAudit.Json.Reader
import MockAudit.Json.Writer
import Mathlib.Data.List.TakeWhile

namespace MockAudit.Json

/-! ## String literals -/

theorem hexQuad?_hexDigit : ∀ n < 32, hexQuad? '0' '0' (hexDigit (n / 16)) (hexDigit (n % 16)) = some n := by
  decide

theorem readLiteral_simpleEscape {e c : Char} (stands : simpleEscape? e = some c) (literal : Literal)
    (rest : List Char) :
    readLiteral literal none ('\\' :: e :: rest) = readLiteral (literal.push c) none rest := by
  have notCode : e ≠ 'u' := by
    rintro rfl
    simp [simpleEscape?] at stands
  rw [readLiteral]
  · simp [stands, Literal.settle]
  · intro a b c d more code
    exact absurd code notCode

theorem readLiteral_escape (literal : Literal) (c : Char) (rest : List Char) :
    readLiteral literal none (escape c ++ rest) = readLiteral (literal.push c) none rest := by
  unfold escape
  split_ifs with isQuote isBackslash isNewline isReturn isTab isBackspace isFeed isControl
  · exact readLiteral_simpleEscape (by rw [isQuote]; rfl) literal rest
  · exact readLiteral_simpleEscape (by rw [isBackslash]; rfl) literal rest
  · exact readLiteral_simpleEscape (by rw [isNewline]; rfl) literal rest
  · exact readLiteral_simpleEscape (by rw [isReturn]; rfl) literal rest
  · exact readLiteral_simpleEscape (by rw [isTab]; rfl) literal rest
  · exact readLiteral_simpleEscape (by rw [← c.ofNat_toNat, isBackspace]; rfl) literal rest
  · exact readLiteral_simpleEscape (by rw [← c.ofNat_toNat, isFeed]; rfl) literal rest
  · have noSurrogate : isLeading c.toNat = false ∧ isTrailing c.toNat = false := by
      simp only [isLeading, isTrailing, Bool.and_eq_false_iff, decide_eq_false_iff_not]
      omega
    simp [readLiteral, hexQuad?_hexDigit c.toNat isControl, Literal.pushCode, noSurrogate, c.ofNat_toNat]
  · rw [List.singleton_append, readLiteral]
    · rw [if_neg (not_or.mpr ⟨isBackslash, isControl⟩)]
      simp [Literal.settle]
    · exact isQuote
    · intro _ _ _ _ _ same
      exact absurd same isBackslash
    · intro _ _ same
      exact absurd same isBackslash

theorem readLiteral_flatMap_escape (literal : Literal) (chars rest : List Char) :
    readLiteral literal none (chars.flatMap escape ++ '"' :: rest) =
      some ({ literal with reversed := chars.reverse ++ literal.reversed }, rest) := by
  induction chars generalizing literal with
  | nil => simp [readLiteral, Literal.settle]
  | cons c chars ih =>
      rw [List.flatMap_cons, List.append_assoc, readLiteral_escape, ih]
      simp [Literal.push]

theorem toList_quote (s : String) : (quote s).toList = '"' :: (s.toList.flatMap escape ++ ['"']) := by
  simp [quote]

theorem readKey_quote (s : String) (rest : List Char) :
    readKey ((quote s).toList ++ rest) = some (some s, rest) := by
  have literal := readLiteral_flatMap_escape {} s.toList rest
  simp [readKey, toList_quote, literal, Literal.text?]

theorem readScalar_quote (s : String) (rest : List Char) :
    readScalar ((quote s).toList ++ rest) = (.string s, some rest) := by
  have literal := readLiteral_flatMap_escape {} s.toList rest
  simp [readScalar, toList_quote, literal, Literal.text?]

/-! ## Integers -/

def EndsNumber (text : List Char) : Prop := ∀ c ∈ text.head?, c.isDigit = false ∧ c ≠ '.' ∧ c ≠ 'e' ∧ c ≠ 'E'

theorem natOfDigits_toDigits (n : Nat) : natOfDigits (Nat.toDigits 10 n) = n := by
  have same (run : List Char) : natOfDigits run = Nat.ofDigitChars 10 run 0 := by
    simp only [natOfDigits, Nat.ofDigitChars, Nat.mul_comm 10]
    rfl
  rw [same, Nat.ofDigitChars_ten_toDigits]

theorem toDigits_eq_cons (n : Nat) : ∃ d ds, Nat.toDigits 10 n = d :: ds ∧ d.isDigit := by
  obtain ⟨d, ds, digits⟩ := List.exists_cons_of_ne_nil (Nat.toDigits_ne_nil : Nat.toDigits 10 n ≠ [])
  have member : d ∈ Nat.toDigits 10 n := by simp [digits]
  exact ⟨d, ds, digits, Nat.isDigit_of_mem_toDigits (by decide) (by decide) member⟩

theorem head?_toDigits {n : Nat} (positive : 0 < n) : (Nat.toDigits 10 n).head? ≠ some '0' := by
  induction n using Nat.strongRecOn with
  | _ n ih =>
      rw [Nat.toDigits_eq_if (by decide)]
      split
      · rename_i small
        have digit : ∀ n < 10, 0 < n → n.digitChar ≠ '0' := by decide
        simpa using digit n small positive
      · rename_i large
        have leading := ih (n / 10) (by omega) (by omega)
        obtain ⟨d, ds, digits, -⟩ := toDigits_eq_cons (n / 10)
        simpa [digits] using leading

theorem digitRun_append {run rest : List Char} (digits : ∀ c ∈ run, c.isDigit) (ends : EndsNumber rest) :
    digitRun (run ++ rest) = run := by
  rw [digitRun, List.takeWhile_append_of_pos digits]
  cases rest with
  | nil => simp
  | cons c rest => simp [(ends c rfl).1]

theorem readWhole_toDigits (n : Nat) {rest : List Char} (ends : EndsNumber rest) :
    readWhole (Nat.toDigits 10 n ++ rest) = some (Nat.toDigits 10 n, rest) := by
  have digits : ∀ c ∈ Nat.toDigits 10 n, c.isDigit := fun c member =>
    Nat.isDigit_of_mem_toDigits (by decide) (by decide) member
  have run := digitRun_append digits ends
  rcases Nat.eq_zero_or_pos n with rfl | positive
  · rw [readWhole, run]
    rfl
  · have leading := head?_toDigits positive
    rw [readWhole, run]
    split
    · rename_i noDigits
      exact absurd noDigits Nat.toDigits_ne_nil
    · rename_i zero
      simp [zero] at leading
    · rename_i zero
      simp [zero] at leading
    · simp

theorem readNumeral_digits (n : Int) {rest : List Char} (ends : EndsNumber rest) :
    readNumeral ((digits n).toList ++ rest) =
      some (⟨n < 0, Nat.toDigits 10 n.natAbs, none, none⟩, rest) := by
  have fraction : readFraction rest = some (none, rest) := by
    cases rest with
    | nil => rfl
    | cons c rest =>
        have point := (ends c rfl).2.1
        rw [readFraction]
        simpa using point
  have exponent : readExponent rest = some (none, rest) := by
    cases rest with
    | nil => rfl
    | cons c rest => simp [readExponent, (ends c rfl).2.2]
  cases n with
  | ofNat m =>
      obtain ⟨d, ds, digits, isDigit⟩ := toDigits_eq_cons m
      have noSign : d ≠ '-' := by
        rintro rfl
        exact absurd isDigit (by decide)
      have whole := readWhole_toDigits m ends
      rw [digits, List.cons_append] at whole
      have nonnegative : ¬ (m : Int) < 0 := by omega
      simp [Json.digits, readNumeral, digits, noSign, whole, fraction, exponent, nonnegative]
  | negSucc m =>
      simp [digits, readNumeral, Nat.toList_repr, readWhole_toDigits (m + 1) ends, fraction, exponent]

theorem digits_eq_cons (n : Int) : ∃ c cs, (digits n).toList = c :: cs ∧ (c.isDigit ∨ c = '-') := by
  cases n with
  | ofNat m =>
      obtain ⟨d, ds, digits, isDigit⟩ := toDigits_eq_cons m
      exact ⟨d, ds, by simp [Json.digits, digits], .inl isDigit⟩
  | negSucc m => exact ⟨'-', Nat.toDigits 10 (m + 1), by simp [digits], .inr rfl⟩

theorem not_mem_of_startsNumber {c : Char} (starts : c.isDigit ∨ c = '-') :
    c ∉ ['"', 'n', 't', 'f', '[', '\x7b', ']', ' ', '\n', '\t', '\r'] := by
  have others : ['"', 'n', 't', 'f', '[', '\x7b', ']', ' ', '\n', '\t', '\r'].all
      fun d => !(d.isDigit || d == '-') := rfl
  intro member
  have other := List.all_eq_true.mp others c member
  simp only [Bool.not_eq_true', Bool.or_eq_false_iff, beq_eq_false_iff_ne] at other
  rcases starts with isDigit | isSign
  · simp [other.1] at isDigit
  · exact other.2 isSign

theorem value_plain {n : Int} (above : -0x8000000000000000 ≤ n) (below : n ≤ 0xFFFFFFFFFFFFFFFF) :
    (⟨n < 0, Nat.toDigits 10 n.natAbs, none, none⟩ : Numeral).value = .int n := by
  unfold Numeral.value
  simp only [natOfDigits_toDigits]
  by_cases negative : n < 0
  · have magnitude : 0 < n.natAbs ∧ n.natAbs ≤ 0x8000000000000000 := by omega
    have sign : -(n.natAbs : Int) = n := by omega
    rw [if_neg (by simp [negative]), if_pos (by simp [negative, magnitude]), sign]
  · have magnitude : n.natAbs ≤ 0xFFFFFFFFFFFFFFFF := by omega
    have sign : (n.natAbs : Int) = n := by omega
    rw [if_pos (by simp [negative, magnitude]), sign]

theorem readScalar_digits {n : Int} (above : -0x8000000000000000 ≤ n) (below : n ≤ 0xFFFFFFFFFFFFFFFF)
    {rest : List Char} (ends : EndsNumber rest) :
    readScalar ((digits n).toList ++ rest) = (.int n, some rest) := by
  obtain ⟨c, cs, text, starts⟩ := digits_eq_cons n
  have numeral := readNumeral_digits n ends
  rw [text, List.cons_append] at numeral ⊢
  have other := not_mem_of_startsNumber starts
  simp only [List.mem_cons, not_or] at other
  simp [readScalar, other, numeral, value_plain above below]

/-! ## Layout -/

theorem toList_newline (level : Nat) : (newline level).toList = '\n' :: List.replicate (2 * level) ' ' := by
  simp [newline]

theorem endsNumber_newline (level : Nat) (text : List Char) : EndsNumber ((newline level).toList ++ text) := by
  simp [EndsNumber, toList_newline]

theorem skipBlanks_newline (level : Nat) (text : List Char) :
    skipBlanks ((newline level).toList ++ text) = skipBlanks text := by
  refine List.dropWhile_append_of_pos fun c member => ?_
  rw [toList_newline, List.mem_cons] at member
  rcases member with rfl | member
  · rfl
  · rw [List.eq_of_mem_replicate member]
    rfl

theorem skipBlanks_token {c : Char} (token : isBlank c = false) (text : List Char) :
    skipBlanks (c :: text) = c :: text := by
  simp [skipBlanks, token]

theorem readValue_newline (fuel room level : Nat) (text : List Char) :
    readValue fuel room ((newline level).toList ++ text) = readValue fuel room text := by
  cases fuel with
  | zero => simp only [readValue]
  | succ fuel => simp only [readValue, skipBlanks_newline]

theorem readValue_space (fuel room : Nat) (text : List Char) :
    readValue fuel room (' ' :: text) = readValue fuel room text := by
  cases fuel with
  | zero => simp only [readValue]
  | succ fuel => simp [readValue, skipBlanks, isBlank]

theorem dropColon_space (text : List Char) : dropColon (": ".toList ++ text) = some (' ' :: text) := by
  simp [dropColon, skipBlanks, isBlank]

theorem skipBlanks_quote (key : String) (text : List Char) :
    skipBlanks ((quote key).toList ++ text) = (quote key).toList ++ text := by
  rw [toList_quote, List.cons_append, skipBlanks_token rfl]

def listing (level : Nat) (texts : List String) : List Char :=
  (String.intercalate ("," ++ newline level) texts).toList

theorem listing_singleton (level : Nat) (text : String) : listing level [text] = text.toList := by
  rw [listing, String.intercalate_singleton]

theorem listing_cons (level : Nat) (text : String) {texts : List String} (filled : texts ≠ []) :
    listing level (text :: texts) = text.toList ++ ',' :: ((newline level).toList ++ listing level texts) := by
  rw [listing, String.intercalate_cons_of_ne_nil filled, String.toList_append, String.toList_append, List.append_assoc,
    String.toList_append, List.append_assoc]
  rfl

theorem listing_eq_append (level : Nat) (text : String) (texts : List String) :
    ∃ more, listing level (text :: texts) = text.toList ++ more := by
  cases texts with
  | nil => exact ⟨[], by rw [listing_singleton, List.append_nil]⟩
  | cons next texts => exact ⟨_, listing_cons level text (by simp)⟩

theorem toList_bracketed (level : Nat) (opening closing : String) {texts : List String} (filled : texts ≠ []) :
    (bracketed level opening closing texts).toList =
      opening.toList ++ ((newline (level + 1)).toList ++ (listing (level + 1) texts
        ++ ((newline level).toList ++ closing.toList))) := by
  cases texts with
  | nil => exact absurd rfl filled
  | cons text texts => simp only [bracketed, listing, String.toList_append, List.append_assoc]

theorem bracketed_eq_append (level : Nat) (opening closing : String) (texts : List String) :
    ∃ more, (bracketed level opening closing texts).toList = opening.toList ++ more := by
  cases texts with
  | nil => exact ⟨closing.toList, by rw [bracketed, String.toList_append]⟩
  | cons text texts => exact ⟨_, toList_bracketed level opening closing (by simp)⟩

/-! ## Values -/

mutual

/-- Does a text give the value back? It nests at most `room` deep, its integers fit into 64 bits, and it has no
decimals and no unreadable places. -/
def Fits : Nat → Json → Prop
  | _, .null | _, .bool _ | _, .string _ => True
  | _, .int value => -0x8000000000000000 ≤ value ∧ value ≤ 0xFFFFFFFFFFFFFFFF
  | _, .decimal _ | _, .unreadable _ => False
  | room, .array items => ∃ inner, room = inner + 1 ∧ FitItems inner items
  | room, .object members => ∃ inner, room = inner + 1 ∧ FitMembers inner members

def FitItems : Nat → List Json → Prop
  | _, [] => True
  | room, item :: rest => Fits room item ∧ FitItems room rest

def FitMembers : Nat → List (String × Json) → Prop
  | _, [] => True
  | room, (_, value) :: rest => Fits room value ∧ FitMembers room rest

end

theorem prettyAt_eq_cons {json : Json} {room : Nat} (fits : Fits room json) (level : Nat) :
    ∃ c cs, (json.prettyAt level).toList = c :: cs ∧ isBlank c = false ∧ c ≠ ']' := by
  cases json with
  | null => exact ⟨'n', ['u', 'l', 'l'], by simp [prettyAt], rfl, by decide⟩
  | bool value =>
      cases value with
      | false => exact ⟨'f', ['a', 'l', 's', 'e'], by simp [prettyAt], rfl, by decide⟩
      | true => exact ⟨'t', ['r', 'u', 'e'], by simp [prettyAt], rfl, by decide⟩
  | int value =>
      obtain ⟨c, cs, text, starts⟩ := digits_eq_cons value
      have other := not_mem_of_startsNumber starts
      simp only [List.mem_cons, not_or] at other
      exact ⟨c, cs, by rw [prettyAt, text], by simp [isBlank, other], by simp [other]⟩
  | decimal text => simp [Fits] at fits
  | string value => exact ⟨'"', _, by rw [prettyAt, toList_quote], rfl, by decide⟩
  | array items =>
      obtain ⟨more, text⟩ := bracketed_eq_append level "[" "]" (prettyItems (level + 1) items)
      exact ⟨'[', more, by rw [prettyAt, text]; rfl, rfl, by decide⟩
  | object members =>
      obtain ⟨more, text⟩ := bracketed_eq_append level "\x7b" "\x7d" (prettyMembers (level + 1) members)
      exact ⟨'\x7b', more, by rw [prettyAt, text]; rfl, rfl, by decide⟩
  | unreadable obstacle => simp [Fits] at fits

theorem prettyItems_ne_nil (level : Nat) {items : List Json} (filled : items ≠ []) : prettyItems level items ≠ [] := by
  cases items with
  | nil => exact absurd rfl filled
  | cons item items => simp [prettyItems]

theorem prettyMembers_ne_nil (level : Nat) {members : List (String × Json)} (filled : members ≠ []) :
    prettyMembers level members ≠ [] := by
  cases members with
  | nil => exact absurd rfl filled
  | cons entry members => simp [prettyMembers]

theorem skipBlanks_listing_items {items : List Json} (filled : items ≠ []) {room : Nat} (fits : FitItems room items)
    (level : Nat) (rest more : List Char) :
    skipBlanks ((newline level).toList ++ (listing level (prettyItems level items) ++ rest)) ≠ ']' :: more := by
  cases items with
  | nil => exact absurd rfl filled
  | cons item items =>
      obtain ⟨c, cs, text, token, notClosing⟩ := prettyAt_eq_cons fits.1 level
      obtain ⟨after, start⟩ := listing_eq_append level (item.prettyAt level) (prettyItems level items)
      rw [prettyItems, start, text, skipBlanks_newline, List.append_assoc, List.cons_append, skipBlanks_token token]
      simp [notClosing]

theorem skipBlanks_listing_members {members : List (String × Json)} (filled : members ≠ []) (level : Nat)
    (rest more : List Char) :
    skipBlanks ((newline level).toList ++ (listing level (prettyMembers level members) ++ rest)) ≠ '\x7d' :: more := by
  match members, filled with
  | (key, value) :: members, _ =>
      obtain ⟨after, start⟩ :=
        listing_eq_append level (quote key ++ ": " ++ value.prettyAt level) (prettyMembers level members)
      rw [prettyMembers, start, skipBlanks_newline, String.toList_append, String.toList_append, toList_quote]
      simp [skipBlanks, isBlank]

theorem exists_less {json : Json} {room : Nat} (fits : Fits room json) {level fuel : Nat}
    (enough : 2 * (json.prettyAt level).toList.length ≤ fuel) : ∃ less, fuel = less + 1 := by
  obtain ⟨c, cs, text, -⟩ := prettyAt_eq_cons fits level
  rw [text, List.length_cons] at enough
  exact ⟨fuel - 1, by omega⟩

theorem readValue_scalar {c : Char} (token : c ∉ [' ', '\n', '\t', '\r', '[', '\x7b']) (fuel room : Nat)
    (text : List Char) : readValue (fuel + 1) room (c :: text) = readScalar (c :: text) := by
  simp only [List.mem_cons, not_or] at token
  have start := skipBlanks_token (by simp [isBlank, token] : isBlank c = false) text
  simp [readValue, start, token]

theorem readValue_list {text : List Char} (filled : ∀ more, skipBlanks text ≠ ']' :: more) (fuel room : Nat) :
    readValue (fuel + 1) (room + 1) ('[' :: text) =
      (.array (readItems fuel room [] text).1, (readItems fuel room [] text).2) := by
  have start : skipBlanks ('[' :: text) = '[' :: text := skipBlanks_token rfl text
  simp [readValue, start]

theorem readValue_record {text : List Char} (filled : ∀ more, skipBlanks text ≠ '\x7d' :: more) (fuel room : Nat) :
    readValue (fuel + 1) (room + 1) ('\x7b' :: text) =
      (.object (readMembers fuel room [] text).1, (readMembers fuel room [] text).2) := by
  have start : skipBlanks ('\x7b' :: text) = '\x7b' :: text := skipBlanks_token rfl text
  simp [readValue, start]

mutual

/-- The text of a value is read back, up to what follows it. Every step of the reader takes a character or comes
after one that does, so twice the length of the text is fuel enough. -/
theorem readValue_prettyAt : ∀ (json : Json) (level room fuel : Nat) (rest : List Char), Fits room json →
    EndsNumber rest → 2 * (json.prettyAt level).toList.length ≤ fuel →
    readValue fuel room ((json.prettyAt level).toList ++ rest) = (json, some rest)
  | .null => by
      intro _ _ _ _ fits _ enough
      obtain ⟨less, rfl⟩ := exists_less fits enough
      simp [prettyAt, readValue_scalar, readScalar, dropWord]
  | .bool value => by
      intro _ _ _ _ fits _ enough
      obtain ⟨less, rfl⟩ := exists_less fits enough
      cases value <;> simp [prettyAt, readValue_scalar, readScalar, dropWord]
  | .int value => by
      intro _ _ _ _ fits ends enough
      obtain ⟨less, rfl⟩ := exists_less fits enough
      obtain ⟨c, cs, text, starts⟩ := digits_eq_cons value
      have other := not_mem_of_startsNumber starts
      have scalar := readScalar_digits fits.1 fits.2 ends
      rw [prettyAt]
      rw [text, List.cons_append] at scalar ⊢
      rw [readValue_scalar (by simp_all), scalar]
  | .string value => by
      intro _ _ _ rest fits _ enough
      obtain ⟨less, rfl⟩ := exists_less fits enough
      have scalar := readScalar_quote value rest
      rw [prettyAt]
      rw [toList_quote, List.cons_append] at scalar ⊢
      rw [readValue_scalar (by decide), scalar]
  | .array items => by
      intro level _ _ _ fits _ enough
      obtain ⟨less, rfl⟩ := exists_less fits enough
      obtain ⟨inner, rfl, fits⟩ := fits
      rw [prettyAt] at enough ⊢
      by_cases empty : items = []
      · simp [empty, prettyItems, bracketed, readValue, skipBlanks, isBlank]
      · have filled := prettyItems_ne_nil (level + 1) empty
        rw [toList_bracketed level "[" "]" filled] at enough ⊢
        simp only [String.reduceToList, List.cons_append, List.nil_append, List.append_assoc, List.length_cons,
          List.length_append] at enough ⊢
        rw [readValue_list (skipBlanks_listing_items empty fits (level + 1) _),
          readItems_pretty items _ _ _ _ _ _ empty fits (by omega)]
        rfl
  | .object members => by
      intro level _ _ _ fits _ enough
      obtain ⟨less, rfl⟩ := exists_less fits enough
      obtain ⟨inner, rfl, fits⟩ := fits
      rw [prettyAt] at enough ⊢
      by_cases empty : members = []
      · simp [empty, prettyMembers, bracketed, readValue, skipBlanks, isBlank]
      · have filled := prettyMembers_ne_nil (level + 1) empty
        rw [toList_bracketed level "\x7b" "\x7d" filled] at enough ⊢
        simp only [String.reduceToList, List.cons_append, List.nil_append, List.append_assoc, List.length_cons,
          List.length_append] at enough ⊢
        rw [readValue_record (skipBlanks_listing_members empty (level + 1) _),
          readMembers_pretty members _ _ _ _ _ _ empty fits (by omega)]
        rfl
  | .decimal text => by
      intro _ _ _ _ fits
      simp [Fits] at fits
  | .unreadable obstacle => by
      intro _ _ _ _ fits
      simp [Fits] at fits

theorem readItems_pretty : ∀ (items : List Json) (level outer room fuel : Nat) (before : List Json)
    (rest : List Char), items ≠ [] → FitItems room items →
    2 * (listing level (prettyItems level items)).length + 1 ≤ fuel →
    readItems fuel room before ((newline level).toList ++ (listing level (prettyItems level items)
      ++ ((newline outer).toList ++ ']' :: rest))) = (before.reverse ++ items, some rest)
  | [] => by simp
  | item :: more => by
      intro level outer _ _ _ _ _ fits enough
      obtain ⟨less, rfl⟩ := Nat.exists_eq_add_of_le' (Nat.le_of_add_left_le enough)
      obtain ⟨fits, fitsMore⟩ := fits
      rw [prettyItems] at enough ⊢
      by_cases last : more = []
      · subst last
        rw [prettyItems, listing_singleton] at enough ⊢
        rw [readItems, readValue_newline, readValue_prettyAt item _ _ _ _ fits (endsNumber_newline outer _) (by omega)]
        simp [skipBlanks_newline, skipBlanks_token (rfl : isBlank ']' = false)]
      · have filled := prettyItems_ne_nil level last
        rw [listing_cons level _ filled] at enough ⊢
        simp only [List.length_append, List.length_cons] at enough
        rw [readItems, readValue_newline, List.append_assoc,
          readValue_prettyAt item _ _ _ _ fits (by simp [EndsNumber]) (by omega)]
        simp only [List.cons_append, List.append_assoc, skipBlanks_token (rfl : isBlank ',' = false)]
        rw [readItems_pretty more _ _ _ _ _ _ last fitsMore (by omega)]
        simp

theorem readMembers_pretty : ∀ (members : List (String × Json)) (level outer room fuel : Nat)
    (before : List (String × Json)) (rest : List Char), members ≠ [] → FitMembers room members →
    2 * (listing level (prettyMembers level members)).length + 1 ≤ fuel →
    readMembers fuel room before ((newline level).toList ++ (listing level (prettyMembers level members)
      ++ ((newline outer).toList ++ '\x7d' :: rest))) = (before.reverse ++ members, some rest)
  | [] => by simp
  | (key, value) :: more => by
      intro level outer _ _ _ _ _ fits enough
      obtain ⟨less, rfl⟩ := Nat.exists_eq_add_of_le' (Nat.le_of_add_left_le enough)
      obtain ⟨fits, fitsMore⟩ := fits
      rw [prettyMembers] at enough ⊢
      by_cases last : more = []
      · subst last
        rw [prettyMembers, listing_singleton] at enough ⊢
        simp only [String.toList_append, List.length_append, List.append_assoc] at enough ⊢
        rw [readMembers, skipBlanks_newline, skipBlanks_quote, readKey_quote]
        simp only [dropColon_space]
        rw [readValue_space, readValue_prettyAt value _ _ _ _ fits (endsNumber_newline outer _) (by omega)]
        simp [skipBlanks_newline, skipBlanks_token (rfl : isBlank '\x7d' = false)]
      · have filled := prettyMembers_ne_nil level last
        rw [listing_cons level _ filled] at enough ⊢
        simp only [String.toList_append, List.length_append, List.length_cons, List.append_assoc] at enough ⊢
        rw [readMembers, skipBlanks_newline, skipBlanks_quote, readKey_quote]
        simp only [dropColon_space]
        rw [readValue_space, readValue_prettyAt value _ _ _ _ fits (by simp [EndsNumber]) (by omega)]
        simp only [List.cons_append, List.append_assoc, skipBlanks_token (rfl : isBlank ',' = false)]
        rw [readMembers_pretty more _ _ _ _ _ _ last fitsMore (by omega)]
        simp

end

theorem read_pretty {json : Json} (fits : Fits nestingLimit json) : read json.pretty = ⟨json, true⟩ := by
  have ends : EndsNumber [] := by simp [EndsNumber]
  have enough : 2 * (json.prettyAt 0).toList.length ≤ 2 * (json.prettyAt 0).toList.length + 2 := by omega
  have value := readValue_prettyAt json _ _ _ _ fits ends enough
  rw [List.append_nil] at value
  simp [read, pretty, value, skipBlanks]

theorem fits_array {room : Nat} {items : List Json} :
    Fits (room + 1) (.array items) ↔ ∀ item ∈ items, Fits room item := by
  have all : FitItems room items ↔ ∀ item ∈ items, Fits room item := by
    induction items with
    | nil => simp [FitItems]
    | cons item items ih => simp [FitItems, ih]
  simp [Fits, all]

theorem fits_object {room : Nat} {members : List (String × Json)} :
    Fits (room + 1) (.object members) ↔ ∀ entry ∈ members, Fits room entry.2 := by
  have all : FitMembers room members ↔ ∀ entry ∈ members, Fits room entry.2 := by
    induction members with
    | nil => simp [FitMembers]
    | cons entry members ih => simp [FitMembers, ih]
  simp [Fits, all]

end MockAudit.Json
