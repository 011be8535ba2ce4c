import MockAudit.Json.Value
import MockAudit.Number.Binary64

namespace MockAudit.Json

def digitRun (text : List Char) : List Char := text.takeWhile Char.isDigit

def natOfDigits (run : List Char) : Nat := run.foldl (fun n c => n * 10 + (c.toNat - 48)) 0

structure Numeral where
  negative : Bool
  whole : List Char
  fraction : Option (List Char)
  exponent : Option (Bool × List Char)

def readWhole (text : List Char) : Option (List Char × List Char) :=
  match digitRun text with
  | [] => none
  | ['0'] => some (['0'], text.drop 1)
  | '0' :: _ => none
  | run => some (run, text.drop run.length)

def readFraction : List Char → Option (Option (List Char) × List Char)
  | '.' :: rest =>
      match digitRun rest with
      | [] => none
      | run => some (some run, rest.drop run.length)
  | text => some (none, text)

def readExponentDigits (negative : Bool) (text : List Char) :
    Option (Option (Bool × List Char) × List Char) :=
  match digitRun text with
  | [] => none
  | run => some (some (negative, run), text.drop run.length)

def readExponent : List Char → Option (Option (Bool × List Char) × List Char)
  | e :: rest =>
      if e = 'e' ∨ e = 'E' then
        match rest with
        | '+' :: more => readExponentDigits false more
        | '-' :: more => readExponentDigits true more
        | more => readExponentDigits false more
      else some (none, e :: rest)
  | [] => some (none, [])

def readNumeral (text : List Char) : Option (Numeral × List Char) := do
  let (negative, rest) := match text with
    | '-' :: rest => (true, rest)
    | _ => (false, text)
  let (whole, rest) ← readWhole rest
  let (fraction, rest) ← readFraction rest
  let (exponent, rest) ← readExponent rest
  return (⟨negative, whole, fraction, exponent⟩, rest)

namespace Numeral

def text (n : Numeral) : String :=
  String.ofList <|
    (if n.negative then ['-'] else []) ++ n.whole
      ++ (match n.fraction with | some run => '.' :: run | none => [])
      ++ (match n.exponent with
          | some (minus, run) => 'e' :: (if minus then ['-'] else []) ++ run
          | none => [])

def scale (n : Numeral) : Int :=
  match n.exponent with
  | none => 0
  | some (true, run) => -(natOfDigits run : Int)
  | some (false, run) => natOfDigits run

def maxSignificand : Nat := 0xFFFFFFFFFFFFFFFF

def appendDigits (significand : Nat) : List Char → Nat × List Char
  | [] => (significand, [])
  | digit :: rest =>
      let next := significand * 10 + (digit.toNat - 48)
      if next ≤ maxSignificand then appendDigits next rest else (significand, digit :: rest)

/-- The significand of leading digits and the power of ten it is scaled by. Digits left over before the point
raise the power, and those after it are dropped. -/
def leading (n : Numeral) : Nat × Int :=
  let fraction := n.fraction.getD []
  let (significand, surplus) := appendDigits 0 n.whole
  let (significand, dropped) := appendDigits significand fraction
  (significand, n.scale + surplus.length - (fraction.length - dropped.length : Nat))

def overflows (n : Numeral) : Bool :=
  let (significand, power) := n.leading
  if significand = 0 ∨ power < 0 then false
  else if 308 < power then true
  else Binary64.productOverflows significand (Nat.pow 10 power.toNat)

/-- The value of a number. A minus sign makes zero a decimal. -/
def value (n : Numeral) : Json :=
  let magnitude := natOfDigits n.whole
  let plain := n.fraction.isNone && n.exponent.isNone
  if plain && !n.negative && magnitude ≤ 0xFFFFFFFFFFFFFFFF then .int magnitude
  else if plain && n.negative && 0 < magnitude && magnitude ≤ 0x8000000000000000 then .int (-(magnitude : Int))
  else if n.overflows then .unreadable .unusable
  else .decimal n.text

end Numeral
end MockAudit.Json
