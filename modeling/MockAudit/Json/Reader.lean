import MockAudit.Json.Numeral

namespace MockAudit.Json

abbrev Rest := Option (List Char)

def nestingLimit : Nat := 127

def isBlank (c : Char) : Bool := c == ' ' || c == '\n' || c == '\t' || c == '\r'

def skipBlanks (text : List Char) : List Char := text.dropWhile isBlank

def hexValue? (c : Char) : Option Nat :=
  if '0' ≤ c ∧ c ≤ '9' then some (c.toNat - 48)
  else if 'a' ≤ c ∧ c ≤ 'f' then some (c.toNat - 87)
  else if 'A' ≤ c ∧ c ≤ 'F' then some (c.toNat - 55)
  else none

def hexQuad? (a b c d : Char) : Option Nat := do
  let a ← hexValue? a
  let b ← hexValue? b
  let c ← hexValue? c
  let d ← hexValue? d
  return ((a * 16 + b) * 16 + c) * 16 + d

def simpleEscape? (c : Char) : Option Char :=
  if c = '"' ∨ c = '\\' ∨ c = '/' then some c
  else if c = 'b' then some (Char.ofNat 8)
  else if c = 'f' then some (Char.ofNat 12)
  else if c = 'n' then some '\n'
  else if c = 'r' then some '\r'
  else if c = 't' then some '\t'
  else none

structure Literal where
  reversed : List Char := []
  sound : Bool := true

def Literal.push (literal : Literal) (c : Char) : Literal :=
  { literal with reversed := c :: literal.reversed }

def Literal.text? (literal : Literal) : Option String :=
  if literal.sound then some (String.ofList literal.reversed.reverse) else none

def isLeading (n : Nat) : Bool := 0xD800 ≤ n && n ≤ 0xDBFF

def isTrailing (n : Nat) : Bool := 0xDC00 ≤ n && n ≤ 0xDFFF

def Literal.pushCode (literal : Literal) (pending : Option Nat) (code : Nat) : Literal × Option Nat :=
  match pending with
  | some leading =>
      if isTrailing code then
        (literal.push (Char.ofNat (0x10000 + (leading - 0xD800) * 0x400 + (code - 0xDC00))), none)
      else ({ literal with sound := false }, none)
  | none =>
      if isLeading code then (literal, some code)
      else if isTrailing code then ({ literal with sound := false }, none)
      else (literal.push (Char.ofNat code), none)

def Literal.settle (literal : Literal) (pending : Option Nat) : Literal :=
  if pending.isSome then { literal with sound := false } else literal

def readLiteral (literal : Literal) (pending : Option Nat) : List Char → Option (Literal × List Char)
  | '"' :: rest => some (literal.settle pending, rest)
  | '\\' :: 'u' :: a :: b :: c :: d :: rest =>
      match hexQuad? a b c d with
      | none => none
      | some code =>
          let next := literal.pushCode pending code
          readLiteral next.1 next.2 rest
  | '\\' :: e :: rest =>
      match simpleEscape? e with
      | none => none
      | some c => readLiteral ((literal.settle pending).push c) none rest
  | c :: rest =>
      if c = '\\' ∨ c.toNat < 32 then none
      else readLiteral ((literal.settle pending).push c) none rest
  | [] => none

def dropWord (word : List Char) (text : List Char) : Rest :=
  if word.isPrefixOf text then some (text.drop word.length) else none

def readScalar (text : List Char) : Json × Rest :=
  match text with
  | '"' :: rest =>
      match readLiteral {} none rest with
      | none => (.unreadable .broken, none)
      | some (literal, rest) =>
          (match literal.text? with
            | some s => .string s
            | none => .unreadable .unusable, some rest)
  | 'n' :: _ =>
      match dropWord ['n', 'u', 'l', 'l'] text with
      | some rest => (.null, some rest)
      | none => (.unreadable .broken, none)
  | 't' :: _ =>
      match dropWord ['t', 'r', 'u', 'e'] text with
      | some rest => (.bool true, some rest)
      | none => (.unreadable .broken, none)
  | 'f' :: _ =>
      match dropWord ['f', 'a', 'l', 's', 'e'] text with
      | some rest => (.bool false, some rest)
      | none => (.unreadable .broken, none)
  | _ =>
      match readNumeral text with
      | some (numeral, rest) => (numeral.value, some rest)
      | none => (.unreadable .broken, none)

def readKey (text : List Char) : Option (Option String × List Char) :=
  match text with
  | '"' :: rest => (readLiteral {} none rest).map fun (literal, rest) => (literal.text?, rest)
  | _ => none

def missingKey (text : List Char) : Obstacle :=
  match text with
  | '[' :: _ | '\x7b' :: _ => .wrongKey
  | '"' :: _ => .noKey
  | _ =>
      match readScalar text with
      | (.unreadable _, _) => .noKey
      | _ => .wrongKey

def dropColon (text : List Char) : Rest :=
  match skipBlanks text with
  | ':' :: rest => some rest
  | _ => none

inductive Expectation where
  | value
  | first
  | more

/-- Check the text of the lists and objects that are open, innermost first, and give what follows the
outermost. An open object is `true`, an open list `false`. -/
def checkNested : Nat → List Bool → Expectation → List Char → Rest
  | 0, _, _, _ => none
  | _ + 1, [], .value, text => (readScalar (skipBlanks text)).2
  | _ + 1, [], _, text => some text
  | fuel + 1, inObject :: outer, .value, text =>
      match skipBlanks text with
      | '[' :: rest => checkNested fuel (false :: inObject :: outer) .first rest
      | '\x7b' :: rest => checkNested fuel (true :: inObject :: outer) .first rest
      | token =>
          match (readScalar token).2 with
          | none => none
          | some rest => checkNested fuel (inObject :: outer) .more rest
  | fuel + 1, false :: outer, .first, text =>
      match skipBlanks text with
      | ']' :: rest => checkNested fuel outer .more rest
      | token => checkNested fuel (false :: outer) .value token
  | fuel + 1, true :: outer, .first, text =>
      match skipBlanks text with
      | '\x7d' :: rest => checkNested fuel outer .more rest
      | token =>
          match (readKey token).bind fun (_, rest) => dropColon rest with
          | none => none
          | some rest => checkNested fuel (true :: outer) .value rest
  | fuel + 1, inObject :: outer, .more, text =>
      match skipBlanks text with
      | ',' :: rest =>
          if inObject then
            match (readKey (skipBlanks rest)).bind fun (_, rest) => dropColon rest with
            | none => none
            | some rest => checkNested fuel (true :: outer) .value rest
          else checkNested fuel (false :: outer) .value rest
      | ']' :: rest => if inObject then none else checkNested fuel outer .more rest
      | '\x7d' :: rest => if inObject then checkNested fuel outer .more rest else none
      | _ => none

def readTooDeep (fuel : Nat) (isObject : Bool) (text : List Char) : Json × Rest :=
  match checkNested fuel [isObject] .first text with
  | some rest => (.unreadable .unusable, some rest)
  | none => (.unreadable .broken, none)

mutual

def readValue : Nat → Nat → List Char → Json × Rest
  | 0, _, _ => (.unreadable .broken, none)
  | fuel + 1, room, text =>
      match skipBlanks text with
      | '[' :: rest =>
          match room with
          | 0 => readTooDeep (4 * rest.length + 4) false rest
          | room + 1 =>
              match skipBlanks rest with
              | ']' :: rest => (.array [], some rest)
              | _ =>
                  let (items, rest) := readItems fuel room [] rest
                  (.array items, rest)
      | '\x7b' :: rest =>
          match room with
          | 0 => readTooDeep (4 * rest.length + 4) true rest
          | room + 1 =>
              match skipBlanks rest with
              | '\x7d' :: rest => (.object [], some rest)
              | _ =>
                  let (members, rest) := readMembers fuel room [] rest
                  (.object members, rest)
      | token => readScalar token

def readItems : Nat → Nat → List Json → List Char → List Json × Rest
  | 0, _, before, _ => ((.unreadable .broken :: before).reverse, none)
  | fuel + 1, room, before, text =>
      match readValue fuel room text with
      | (item, none) => ((item :: before).reverse, none)
      | (item, some rest) =>
          match skipBlanks rest with
          | ']' :: rest => ((item :: before).reverse, some rest)
          | ',' :: rest => readItems fuel room (item :: before) rest
          | _ => ((.unreadable .broken :: item :: before).reverse, none)

def readMembers : Nat → Nat → List (String × Json) → List Char → List (String × Json) × Rest
  | 0, _, before, _ => ((("", .unreadable .noKey) :: before).reverse, none)
  | fuel + 1, room, before, text =>
      match readKey (skipBlanks text) with
      | none => ((("", .unreadable (missingKey (skipBlanks text))) :: before).reverse, none)
      | some (key, rest) =>
          let before := match key with
            | some _ => before
            | none => ("", .unreadable .unusableKey) :: before
          match dropColon rest with
          | none => (((key.getD "", .unreadable .broken) :: before).reverse, none)
          | some rest =>
              match readValue fuel room rest with
              | (value, none) => (((key.getD "", value) :: before).reverse, none)
              | (value, some rest) =>
                  let before := (key.getD "", value) :: before
                  match skipBlanks rest with
                  | '\x7d' :: rest => (before.reverse, some rest)
                  | ',' :: rest => readMembers fuel room before rest
                  | _ => ((("", .unreadable .noKey) :: before).reverse, none)

end

structure Document where
  root : Json
  complete : Bool

/-- Read a text. Every step takes a character or ends the reading, so twice the length is fuel enough. -/
def read (text : String) : Document :=
  let chars := text.toList
  match readValue (2 * chars.length + 2) nestingLimit chars with
  | (root, none) => ⟨root, false⟩
  | (root, some rest) => ⟨root, (skipBlanks rest).isEmpty⟩

end MockAudit.Json
