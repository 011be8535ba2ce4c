import MockAudit.Text.Split
import MockAudit.Workspace.Pattern

/-!
# Ignore rules

A rule without a slash, but for one at its end, holds for names at every depth, any other rule for paths from the
directory of its file on. The last rule that matches a path decides. Wildcards work on bytes and, in contrast to
exclusion patterns, `*` and `?` do not match a slash.
-/

namespace MockAudit

inductive Wildcard where
  | literal (c : Char)
  | any
  | star
  | leadingSegments
  | trailingSegments
  | innerSegments
  | oneOf (negated : Bool) (ranges : List (Char × Char))
  | alternatives (branches : List (List Wildcard))

namespace Wildcard

def bytesOf (c : Char) : List UInt8 := (String.singleton c).toUTF8.data.toList

/-- Is a byte in the range of two characters? Of characters with several bytes all bytes count, and the range
lies between the last byte of the first and the first byte of the second. -/
def inRange (byte : UInt8) (range : Char × Char) : Bool :=
  let low := bytesOf range.1
  let high := bytesOf range.2
  low.contains byte || high.contains byte
    || (range.1 != range.2 && low.getLast?.any (· ≤ byte) && high.head?.any (byte ≤ ·))

def slash : UInt8 := 0x2F

def anyByte : UInt8 → Bool := fun _ => true

def noSlash : UInt8 → Bool := (· != slash)

def slashPattern : Pattern UInt8 := .one (· == slash)

mutual

def isVoid : Wildcard → Bool
  | .alternatives branches => areBranchesVoid branches
  | _ => false

def arePartsVoid : List Wildcard → Bool
  | [] => true
  | part :: rest => part.isVoid && arePartsVoid rest

def areBranchesVoid : List (List Wildcard) → Bool
  | [] => true
  | branch :: others => arePartsVoid branch && areBranchesVoid others

end

mutual

def pattern : Wildcard → Pattern UInt8
  | .literal c => .sequence ((bytesOf c).map fun byte => .one (· == byte))
  | .any => .one noSlash
  | .star => .many noSlash
  | .leadingSegments =>
      .choice [.empty, slashPattern, .andThen (.many anyByte) slashPattern]
  | .trailingSegments => .andThen slashPattern (.many anyByte)
  | .innerSegments =>
      .choice [slashPattern, .sequence [slashPattern, .many anyByte, slashPattern]]
  | .oneOf negated ranges => .one fun byte => (ranges.any (inRange byte)) != negated
  | .alternatives branches => .choice (branchPatterns branches)

def sequencePattern : List Wildcard → Pattern UInt8
  | [] => .empty
  | part :: rest => .andThen part.pattern (sequencePattern rest)

def branchPatterns : List (List Wildcard) → List (Pattern UInt8)
  | [] => []
  | branch :: others =>
      let patterns := branchPatterns others
      if arePartsVoid branch then patterns else sequencePattern branch :: patterns

end

def textPattern : List Wildcard → Pattern UInt8
  | [.leadingSegments] => .many anyByte
  | parts => sequencePattern parts

structure OpenGroup where
  branches : List (List Wildcard)
  outer : List Wildcard

structure ReadState where
  parts : List Wildcard := []
  groups : List OpenGroup := []
  previous : Option Char := none
  plainBrackets : Bool := false

namespace ReadState

def add (state : ReadState) (part : Wildcard) (previous : Char) : ReadState :=
  { state with parts := part :: state.parts, previous := some previous }

def addStars (state : ReadState) : ReadState := (state.add .star '*').add .star '*'

/-- Put any number of segments in place of the slash before them. Where there are such segments already,
nothing changes. -/
def addSegments (state : ReadState) (segments : Wildcard) (previous : Char) : ReadState :=
  let parts := match state.parts with
    | .leadingSegments :: rest => .leadingSegments :: rest
    | .trailingSegments :: rest => .trailingSegments :: rest
    | _ :: rest => segments :: rest
    | [] => [segments]
  { state with parts, previous := some previous }

def endsBefore (state : ReadState) : List Char → Bool
  | [] => true
  | c :: _ => !state.groups.isEmpty && (c == ',' || c == '\x7d')

def readStars (state : ReadState) (rest : List Char) : ReadState × List Char :=
  if state.parts.isEmpty then
    match rest with
    | [] => (state.add .leadingSegments '*', [])
    | '/' :: after => (state.add .leadingSegments '/', after)
    | _ => (state.addStars, rest)
  else if state.previous != some '/'
      && (state.groups.isEmpty || (state.previous != some ',' && state.previous != some '\x7b')) then
    (state.addStars, rest)
  else if state.endsBefore rest then (state.addSegments .trailingSegments '*', rest)
  else
    match rest with
    | '/' :: after => (state.addSegments .innerSegments '/', after)
    | _ => (state.addStars, rest)

end ReadState

inductive ClassResult where
  | closed (ranges : List (Char × Char)) (rest : List Char)
  | unclosed
  | backwards

def readClass (ranges : List (Char × Char)) (first pending : Bool) : List Char → ClassResult
  | [] => .unclosed
  | c :: rest =>
      if c == ']' && !first then
        .closed (if pending then ('-', '-') :: ranges else ranges) rest
      else if c == '-' && !first && !pending then readClass ranges false true rest
      else
        match pending, ranges with
        | true, (low, _) :: others =>
            if c < low then .backwards else readClass ((low, c) :: others) false false rest
        | _, _ => readClass ((c, c) :: ranges) false false rest

def readParts? : Nat → ReadState → List Char → Option (List Wildcard)
  | 0, _, _ => none
  | _ + 1, state, [] => if state.groups.isEmpty then some state.parts.reverse else none
  | fuel + 1, state, '?' :: rest => readParts? fuel (state.add .any '?') rest
  | fuel + 1, state, '*' :: '*' :: rest =>
      let (state, rest) := state.readStars rest
      readParts? fuel state rest
  | fuel + 1, state, '*' :: rest => readParts? fuel (state.add .star '*') rest
  | fuel + 1, state, '[' :: rest =>
      let (negated, body) := match rest with
        | '!' :: body => (true, body)
        | '^' :: body => (true, body)
        | body => (false, body)
      match (if state.plainBrackets then .unclosed else readClass [] true false body) with
      | .closed ranges after => readParts? fuel (state.add (.oneOf negated ranges) ']') after
      | .unclosed =>
          readParts? fuel { state.add (.literal '[') '[' with plainBrackets := true } rest
      | .backwards => none
  | fuel + 1, state, '\x7b' :: rest =>
      readParts? fuel
        { state with parts := [], groups := ⟨[], state.parts⟩ :: state.groups, previous := some '\x7b' }
        rest
  | fuel + 1, state, '\x7d' :: rest =>
      match state.groups with
      | [] => none
      | group :: outer =>
          let part := .alternatives (group.branches ++ [state.parts.reverse])
          readParts? fuel
            { state with parts := part :: group.outer, groups := outer, previous := some '\x7d' } rest
  | fuel + 1, state, ',' :: rest =>
      match state.groups with
      | [] => readParts? fuel (state.add (.literal ',') ',') rest
      | group :: outer =>
          let group := { group with branches := group.branches ++ [state.parts.reverse] }
          readParts? fuel { state with parts := [], groups := group :: outer, previous := some ',' } rest
  | fuel + 1, state, '\\' :: rest =>
      match rest with
      | [] => none
      | c :: after => readParts? fuel (state.add (.literal c) c) after
  | fuel + 1, state, c :: rest => readParts? fuel (state.add (.literal c) c) rest

def ofText? (text : List Char) : Option (Pattern UInt8) :=
  (readParts? (text.length + 1) {} text).map textPattern

end Wildcard

structure IgnoreRule where
  pattern : Pattern UInt8
  keeps : Bool
  directoriesOnly : Bool

namespace IgnoreRule

inductive Line where
  | none
  | rule (rule : IgnoreRule)
  | invalid

/-- The text of a rule without the slash at its end, which an escaping backslash may precede, and whether there
was one. -/
def withoutFinalSlash (text : List Char) : List Char × Bool :=
  match text.reverse with
  | '/' :: '\\' :: rest => (rest.reverse, true)
  | '/' :: rest => (rest.reverse, true)
  | _ => (text, false)

/-- The wildcard text of a rule: a rule without slash holds at every depth, and one that ends in any number of
segments holds for what is inside a directory but not for the directory. -/
def depthText (anchored : Bool) (text : List Char) : List Char :=
  let deep := ['*', '*', '/']
  let text :=
    if !anchored && !text.contains '/' && !(deep.isPrefixOf text || text == ['*', '*']) then deep ++ text
    else text
  if ['/', '*', '*'].isSuffixOf text then text ++ ['/', '*'] else text

def ofText (text : List Char) : Line :=
  let (keeps, anchored, body) :=
    if ['\\', '!'].isPrefixOf text || ['\\', '#'].isPrefixOf text then (false, false, text.drop 1)
    else
      let (keeps, body) := match text with
        | '!' :: body => (true, body)
        | body => (false, body)
      match body with
      | '/' :: body => (keeps, true, body)
      | body => (keeps, false, body)
  let (body, directoriesOnly) := withoutFinalSlash body
  match Wildcard.ofText? (depthText anchored body) with
  | some pattern => .rule { pattern, keeps, directoriesOnly }
  | none => .invalid

/-- What a line says. Blanks at its end do not count unless the last one is escaped. -/
def ofLine (line : List Char) : Line :=
  if line.head? == some '#' then .none
  else
    let text := if ['\\', ' '].isSuffixOf line then line else trimEnd line
    if text.isEmpty then .none else ofText text

end IgnoreRule

structure IgnoreFile where
  rules : List IgnoreRule
  sound : Bool

namespace IgnoreFile

def empty : IgnoreFile := ⟨[], true⟩

def ofText (text : String) : IgnoreFile :=
  let chars := text.toList.dropWhile (· == '\ufeff')
  let said := (textLines chars).map IgnoreRule.ofLine
  { rules := said.filterMap fun line => match line with
      | .rule rule => some rule
      | _ => none
    sound := said.all fun line => match line with
      | .invalid => false
      | _ => true }

def verdict? (file : IgnoreFile) (path : String) (isDirectory : Bool) : Option Bool :=
  let bytes := path.toUTF8.data.toList
  (file.rules.reverse.find? fun rule =>
    (!rule.directoriesOnly || isDirectory) && rule.pattern.accepts bytes).map fun rule => !rule.keeps

end IgnoreFile
end MockAudit
