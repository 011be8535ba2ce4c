import MockAudit.Toml.Scalar
import MockAudit.Toml.Table

namespace MockAudit.Toml

def depthLimit : Nat := 79

def skipSpaces (text : List Char) : List Char := text.dropWhile isSpace

def skipComment (text : List Char) : List Char :=
  match text with
  | '#' :: rest => rest.dropWhile isPlain
  | _ => text

def skipLines : Nat → List Char → List Char
  | 0, text => text
  | fuel + 1, text =>
      let rest := skipComment (skipSpaces text)
      match dropNewline rest with
      | some more => skipLines fuel more
      | none => rest

def isKeyChar (c : Char) : Bool := c.isAlphanum || c == '-' || c == '_'

def readSimpleKey (text : List Char) : Option (String × List Char) :=
  match text.takeWhile isKeyChar with
  | [] => readLineString text
  | run => some (String.ofList run, text.drop run.length)

def readKey : Nat → List Char → Option (List String × List Char)
  | 0, _ => none
  | fuel + 1, text =>
      (readSimpleKey (skipSpaces text)).bind fun (part, rest) =>
        match skipSpaces rest with
        | '.' :: more => (readKey fuel more).map fun (parts, rest) => (part :: parts, rest)
        | after => some ([part], after)

def splitKey? (parts : List String) : Option (List String × String) :=
  parts.getLast?.map fun last => (parts.dropLast, last)

mutual

def readValue : Nat → Nat → List Char → Option (Json × List Char)
  | 0, _, _ => none
  | fuel + 1, room, text =>
      match text with
      | '"' :: _ | '\'' :: _ => (readAnyString text).map fun (s, rest) => (.string s, rest)
      | '[' :: rest =>
          match room with
          | 0 => none
          | room + 1 => readItems fuel room [] rest
      | '\x7b' :: rest =>
          match room with
          | 0 => none
          | room + 1 =>
              match skipSpaces rest with
              | '\x7d' :: rest => some (.object [], rest)
              | _ => readPairs fuel room .empty rest
      | _ => readWord text

def readItems : Nat → Nat → List Json → List Char → Option (Json × List Char)
  | 0, _, _, _ => none
  | fuel + 1, room, before, text =>
      match skipLines (text.length + 1) text with
      | ']' :: rest => some (.array before.reverse, rest)
      | token =>
          match readValue fuel room token with
          | none => none
          | some (item, rest) =>
              match skipLines (rest.length + 1) rest with
              | ',' :: rest => readItems fuel room (item :: before) rest
              | ']' :: rest => some (.array (item :: before).reverse, rest)
              | _ => none

def readPairs : Nat → Nat → Level → List Char → Option (Json × List Char)
  | 0, _, _, _ => none
  | fuel + 1, room, level, text =>
      match readPair fuel room text with
      | none => none
      | some (parts, json, rest) =>
          match (splitKey? parts).bind fun (path, key) => setKey path key json level with
          | none => none
          | some level =>
              match skipSpaces rest with
              | ',' :: rest => readPairs fuel room level rest
              | '\x7d' :: rest => some (level.toJson, rest)
              | _ => none

def readPair : Nat → Nat → List Char → Option (List String × Json × List Char)
  | 0, _, _ => none
  | fuel + 1, room, text =>
      match readKey depthLimit text with
      | some (parts, '=' :: rest) =>
          (readValue fuel room (skipSpaces rest)).map fun (json, rest) => (parts, json, rest)
      | _ => none

end

def dropLineEnd (text : List Char) : Option (List Char) :=
  match skipComment (skipSpaces text) with
  | [] => some []
  | rest => dropNewline rest

def readHeader (closing : List Char) (text : List Char) : Option (List String × List Char) :=
  (readKey depthLimit text).bind fun (parts, rest) =>
    if closing.isPrefixOf rest then
      (dropLineEnd (rest.drop closing.length)).map fun rest => (parts, rest)
    else none

def readLines : Nat → List String → Level → List Char → Option Level
  | 0, _, _, _ => none
  | fuel + 1, current, root, text =>
      match skipLines (text.length + 1) text with
      | [] => some root
      | '[' :: '[' :: rest =>
          match readHeader [']', ']'] rest with
          | none => none
          | some (parts, rest) =>
              match (splitKey? parts).bind fun (path, key) => openElement path key root with
              | none => none
              | some root => readLines fuel parts root rest
      | '[' :: rest =>
          match readHeader [']'] rest with
          | none => none
          | some (parts, rest) =>
              match (splitKey? parts).bind fun (path, key) => openTable path key root with
              | none => none
              | some root => readLines fuel parts root rest
      | line =>
          match readPair (2 * line.length + 2) depthLimit line with
          | none => none
          | some (parts, json, rest) =>
              match (splitKey? parts).bind fun (path, key) =>
                  descend false (setKey path key json) current root with
              | none => none
              | some root =>
                  match dropLineEnd rest with
                  | none => none
                  | some rest => readLines fuel current root rest

def read? (text : String) : Option Json :=
  let chars := match text.toList with
    | '\uFEFF' :: rest => rest
    | chars => chars
  (readLines (chars.length + 1) [] .empty chars).map Level.toJson

end MockAudit.Toml
