import MockAudit.Json.Reader

namespace MockAudit.Toml

open Json (hexValue?)

def ungroup (isDigit : Char → Bool) : List Char → Option (List Char)
  | [] => none
  | [c] => if isDigit c then some [c] else none
  | c :: '_' :: rest => if isDigit c then (ungroup isDigit rest).map (c :: ·) else none
  | c :: rest => if isDigit c then (ungroup isDigit rest).map (c :: ·) else none

def digitsValue (base : Nat) (digits : List Char) : Nat :=
  digits.foldl (fun n c => n * base + (hexValue? c).getD 0) 0

def isDigitOf (base : Nat) (c : Char) : Bool := (hexValue? c).any (· < base)

def splitSign : List Char → Option Bool × List Char
  | '+' :: rest => (some false, rest)
  | '-' :: rest => (some true, rest)
  | word => (none, word)

def decimalDigits? (word : List Char) : Option (List Char) :=
  match ungroup Char.isDigit word with
  | some ['0'] => some ['0']
  | some ('0' :: _) => none
  | other => other

def maxInteger : Nat := 0x7FFFFFFFFFFFFFFF

def integer? (word : List Char) : Option Int :=
  match word with
  | '0' :: 'x' :: rest => based 16 rest
  | '0' :: 'o' :: rest => based 8 rest
  | '0' :: 'b' :: rest => based 2 rest
  | _ =>
      let (sign, rest) := splitSign word
      (decimalDigits? rest).bind fun digits =>
        let magnitude := digitsValue 10 digits
        if sign = some true then
          if magnitude ≤ maxInteger + 1 then some (-(magnitude : Int)) else none
        else if magnitude ≤ maxInteger then some (magnitude : Int)
        else none
where
  based (base : Nat) (rest : List Char) : Option Int :=
    (ungroup (isDigitOf base) rest).bind fun digits =>
      let magnitude := digitsValue base digits
      if magnitude ≤ maxInteger then some (magnitude : Int) else none

def exponent? (word : List Char) : Option Int :=
  let (sign, rest) := splitSign word
  (ungroup Char.isDigit rest).map fun digits =>
    let magnitude : Int := digitsValue 10 digits
    if sign = some true then -magnitude else magnitude

def splitAt? (test : Char → Bool) (word : List Char) : Option (List Char × List Char) :=
  match word.dropWhile fun c => !test c with
  | [] => none
  | _ :: rest => some (word.takeWhile fun c => !test c, rest)

def floatParts? (word : List Char) : Option (List Char × Int) := do
  let (mantissa, mark) := match splitAt? (fun c => c == 'e' || c == 'E') word with
    | some (mantissa, exponent) => (mantissa, some exponent)
    | none => (word, none)
  let exponent ← match mark with
    | some written => exponent? written
    | none => some 0
  match splitAt? (· == '.') mantissa with
  | some (whole, fraction) =>
      let whole ← decimalDigits? whole
      let fraction ← ungroup Char.isDigit fraction
      return (whole ++ fraction, exponent - fraction.length)
  | none =>
      if mark.isNone then none
      else (decimalDigits? mantissa).map (·, exponent)

def isFloat (word : List Char) : Bool :=
  let (sign, unsigned) := splitSign word
  if unsigned = ['i', 'n', 'f'] ∨ unsigned = ['n', 'a', 'n'] then true
  else
    match floatParts? unsigned with
    | none => false
    | some (digits, exponent) =>
        sign = some true
          || !Binary64.decimalOverflows (digitsValue 10 digits) digits.length exponent

def takeDigits : Nat → Nat → List Char → Option (Nat × List Char)
  | 0, value, rest => some (value, rest)
  | count + 1, value, c :: rest =>
      if c.isDigit then takeDigits count (value * 10 + (c.toNat - 48)) rest else none
  | _ + 1, _, [] => none

def dropChar (expected : Char) : List Char → Option (List Char)
  | c :: rest => if c = expected then some rest else none
  | [] => none

def daysOf (year month : Nat) : Nat :=
  if month = 2 then
    if year % 4 = 0 ∧ (year % 100 ≠ 0 ∨ year % 400 = 0) then 29 else 28
  else if month = 4 ∨ month = 6 ∨ month = 9 ∨ month = 11 then 30
  else 31

def dropDate? (word : List Char) : Option (List Char) := do
  let (year, rest) ← takeDigits 4 0 word
  let (month, rest) ← takeDigits 2 0 (← dropChar '-' rest)
  let (day, rest) ← takeDigits 2 0 (← dropChar '-' rest)
  if 1 ≤ month ∧ month ≤ 12 ∧ 1 ≤ day ∧ day ≤ daysOf year month then some rest else none

def dropTime? (word : List Char) : Option (List Char) := do
  let (hour, rest) ← takeDigits 2 0 word
  let (minute, rest) ← takeDigits 2 0 (← dropChar ':' rest)
  let (second, rest) ← takeDigits 2 0 (← dropChar ':' rest)
  if ¬(hour ≤ 23 ∧ minute ≤ 59 ∧ second ≤ 60) then none
  else
    match rest with
    | '.' :: fraction =>
        match fraction.takeWhile Char.isDigit with
        | [] => none
        | run => some (fraction.drop run.length)
    | _ => some rest

def isOffset (word : List Char) : Bool :=
  match word with
  | [] | ['Z'] | ['z'] => true
  | sign :: rest =>
      if sign = '+' ∨ sign = '-' then
        let parsed := do
          let (hour, rest) ← takeDigits 2 0 rest
          let (minute, rest) ← takeDigits 2 0 (← dropChar ':' rest)
          if hour ≤ 23 ∧ minute ≤ 59 ∧ rest.isEmpty then some () else none
        parsed.isSome
      else false

def isDatetime (word : List Char) : Bool :=
  match dropDate? word with
  | some [] => true
  | some (separator :: rest) =>
      (separator == 'T' || separator == 't' || separator == ' ') && (dropTime? rest).any isOffset
  | none => (dropTime? word).any List.isEmpty

def datetimeKey : String := "$__toml_private_datetime"

def word? (word : List Char) : Option Json :=
  if word = ['t', 'r', 'u', 'e'] then some (.bool true)
  else if word = ['f', 'a', 'l', 's', 'e'] then some (.bool false)
  else
    match integer? word with
    | some value => some (.int value)
    | none =>
        if isFloat word then some (.decimal (String.ofList word))
        else if isDatetime word then
          some (.object [(datetimeKey, .string (String.ofList word))])
        else none

def isWordChar (c : Char) : Bool :=
  c.isAlphanum || c == '+' || c == '-' || c == '_' || c == '.' || c == ':'

def readWord (text : List Char) : Option (Json × List Char) :=
  let word := text.takeWhile isWordChar
  let rest := text.drop word.length
  let joined := match rest with
    | ' ' :: more =>
        let time := more.takeWhile isWordChar
        if dropDate? word = some [] ∧ isDatetime (word ++ ' ' :: time) ∧ !time.isEmpty then
          some (word ++ ' ' :: time, more.drop time.length)
        else none
    | _ => none
  let (word, rest) := joined.getD (word, rest)
  (word? word).map fun json => (json, rest)

def isPlain (c : Char) : Bool := c == '\t' || (32 ≤ c.toNat && c.toNat != 127)

def scalar? (code : Nat) : Option Char :=
  if code < 0xD800 ∨ (0xDFFF < code ∧ code < 0x110000) then some (Char.ofNat code) else none

def takeHex : Nat → Nat → List Char → Option (Nat × List Char)
  | 0, value, rest => some (value, rest)
  | count + 1, value, c :: rest =>
      (hexValue? c).bind fun digit => takeHex count (value * 16 + digit) rest
  | _ + 1, _, [] => none

def readEscape : List Char → Option (Char × List Char)
  | 'b' :: rest => some (Char.ofNat 8, rest)
  | 't' :: rest => some ('\t', rest)
  | 'n' :: rest => some ('\n', rest)
  | 'f' :: rest => some (Char.ofNat 12, rest)
  | 'r' :: rest => some ('\r', rest)
  | '"' :: rest => some ('"', rest)
  | '\\' :: rest => some ('\\', rest)
  | 'u' :: rest => (takeHex 4 0 rest).bind fun (code, rest) => (scalar? code).map (·, rest)
  | 'U' :: rest => (takeHex 8 0 rest).bind fun (code, rest) => (scalar? code).map (·, rest)
  | _ => none

def dropNewline : List Char → Option (List Char)
  | '\n' :: rest => some rest
  | '\r' :: '\n' :: rest => some rest
  | _ => none

def isSpace (c : Char) : Bool := c == ' ' || c == '\t'

/-- What follows a backslash that joins lines: the rest of the line and all blanks and line breaks. -/
def dropJoint (text : List Char) : Option (List Char) :=
  (dropNewline (text.dropWhile isSpace)).map fun rest => skip (rest.length + 1) rest
where
  skip : Nat → List Char → List Char
    | 0, text => text
    | fuel + 1, text =>
        let rest := text.dropWhile isSpace
        match dropNewline rest with
        | some more => skip fuel more
        | none => rest

structure Quoting where
  quote : Char
  escapes : Bool
  multiline : Bool

def readString (q : Quoting) : Nat → List Char → List Char → Option (String × List Char)
  | 0, _, _ => none
  | _ + 1, _, [] => none
  | fuel + 1, before, c :: rest =>
      if c = q.quote then
        if !q.multiline then some (String.ofList before.reverse, rest)
        else
          let run := (c :: rest).takeWhile (· == q.quote)
          let after := (c :: rest).drop run.length
          if run.length < 3 then readString q fuel (run ++ before) after
          else
            let kept := min (run.length - 3) 2
            some (String.ofList (run.take kept ++ before).reverse, (c :: rest).drop (kept + 3))
      else if c = '\\' ∧ q.escapes then
        match (if q.multiline then dropJoint rest else none) with
        | some after => readString q fuel before after
        | none =>
            match readEscape rest with
            | some (character, after) => readString q fuel (character :: before) after
            | none => none
      else if isPlain c then readString q fuel (c :: before) rest
      else
        match (if q.multiline then dropNewline (c :: rest) else none) with
        | some after => readString q fuel ('\n' :: before) after
        | none => none

def dropFirstNewline (text : List Char) : List Char := (dropNewline text).getD text

def readLineString (text : List Char) : Option (String × List Char) :=
  match text with
  | '"' :: rest => readString ⟨'"', true, false⟩ (rest.length + 1) [] rest
  | '\'' :: rest => readString ⟨'\'', false, false⟩ (rest.length + 1) [] rest
  | _ => none

def readAnyString (text : List Char) : Option (String × List Char) :=
  match text with
  | '"' :: '"' :: '"' :: rest =>
      let rest := dropFirstNewline rest
      readString ⟨'"', true, true⟩ (rest.length + 1) [] rest
  | '\'' :: '\'' :: '\'' :: rest =>
      let rest := dropFirstNewline rest
      readString ⟨'\'', false, true⟩ (rest.length + 1) [] rest
  | _ => readLineString text

end MockAudit.Toml
