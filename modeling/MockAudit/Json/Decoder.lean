import MockAudit.Text.Dictionary
import MockAudit.Json.Reader

/-!
# Decoding values

A decoder behaves as if it read the text from left to right and stopped at the first fault. A record is decoded from an
object, whose members may come in any order, or from a list of its fields in order; of all faults the earliest counts.
-/

namespace MockAudit

inductive Fault where
  | malformed
  | mismatch
deriving DecidableEq

abbrev Decoder (α : Type) := Json → Except Fault α

namespace Decoder

variable {α β : Type}

def wrongKind : Json → Fault
  | .unreadable _ => .malformed
  | _ => .mismatch

def bool : Decoder Bool
  | .bool value => .ok value
  | other => .error (wrongKind other)

def string : Decoder String
  | .string value => .ok value
  | other => .error (wrongKind other)

def intWithin (low high : Int) : Decoder Int
  | .int value => if low ≤ value ∧ value ≤ high then .ok value else .error .mismatch
  | other => .error (wrongKind other)

def word32 : Decoder UInt32 := fun json =>
  (intWithin 0 0xFFFFFFFF json).map fun value => UInt32.ofNat value.toNat

def word64 : Decoder UInt64 := fun json =>
  (intWithin 0 0xFFFFFFFFFFFFFFFF json).map fun value => UInt64.ofNat value.toNat

def nullable (decode : Decoder α) : Decoder (Option α)
  | .null => .ok none
  | other => (decode other).map some

def each (decode : Decoder α) : List Json → Except Fault (List α)
  | [] => .ok []
  | item :: rest =>
      match decode item with
      | .error fault => .error fault
      | .ok value => (each decode rest).map (value :: ·)

def list (decode : Decoder α) : Decoder (List α)
  | .array items => each decode items
  | other => .error (wrongKind other)

def eachMember (decode : Decoder α) (sofar : Dictionary α) :
    List (String × Json) → Except Fault (Dictionary α)
  | [] => .ok sofar
  | (key, json) :: rest =>
      match decode json with
      | .error fault => .error fault
      | .ok value => eachMember decode (sofar.insert key value) rest

def dictionary (decode : Decoder α) : Decoder (Dictionary α)
  | .object members => eachMember decode .empty members
  | other => .error (wrongKind other)

/-- Read a value completely before it is decoded: a break anywhere in it comes first, and after that every
fault is a mismatch. -/
def buffered (decode : Decoder α) : Decoder α := fun json =>
  if json.isReadable then
    match decode json with
    | .ok value => .ok value
    | .error _ => .error .mismatch
  else .error .malformed

end Decoder

inductive Format where
  | json | bufferedJson | toml
deriving DecidableEq

namespace Format

def allowsSurplus : Format → Bool
  | .toml => true
  | _ => false

def isEmptyPayload : Format → Json → Bool
  | .json, .null => true
  | .bufferedJson, .null | .bufferedJson, .object [] => true
  | .toml, .object [] | .toml, .array [] => true
  | _, _ => false

def allowsPosition : Format → Bool
  | .bufferedJson => true
  | _ => false

end Format

def Decoder.name (format : Format) (names : List String) : Decoder String
  | .string name => if name ∈ names then .ok name else .error .mismatch
  | .int position =>
      match (if format.allowsPosition && 0 ≤ position then names[position.toNat]? else none) with
      | some name => .ok name
      | none => .error .mismatch
  | other => .error (wrongKind other)

/-- A named alternative: its name, or an object with the name as only key and an empty payload. Any other
kind of value is taken for malformed text. -/
def Decoder.alternative {α : Type} (format : Format) (named : String → Option α) : Decoder α
  | .string name =>
      match named name with
      | some value => .ok value
      | none => .error .mismatch
  | .object ((_, .unreadable .wrongKey) :: _) => .error .mismatch
  | .object ((_, .unreadable .noKey) :: _) | .object ((_, .unreadable .unusableKey) :: _) =>
      .error .malformed
  | .object ((name, payload) :: rest) =>
      match named name with
      | none => .error .mismatch
      | some value =>
          if !format.isEmptyPayload payload then .error (wrongKind payload)
          else if rest.isEmpty then .ok value
          else .error .malformed
  | _ => .error .malformed

structure Located where
  position : Nat
  fault : Fault

abbrev Members := List (String × Json)

def Members.locate? (key : String) (members : Members) (position : Nat) : Option (Nat × Json) :=
  match members with
  | [] => none
  | (k, value) :: rest =>
      if k = key then some (position, value) else Members.locate? key rest (position + 1)

def Located.earlier (a b : Located) : Located := if b.position < a.position then b else a

structure Fields (α : Type) where
  names : List String
  decode : Members → Except Located α

namespace Fields

variable {α β : Type}

instance : Functor Fields where
  map f fields := ⟨fields.names, fun members => (fields.decode members).map f⟩

instance : Seq Fields where
  seq first second :=
    let next := second ()
    ⟨first.names ++ next.names, fun members =>
      match first.decode members, next.decode members with
      | .ok f, .ok value => .ok (f value)
      | .error a, .ok _ => .error a
      | .ok _, .error b => .error b
      | .error a, .error b => .error (a.earlier b)⟩

def field (name : String) (absent : Option α) (decode : Decoder α) : Fields α where
  names := [name]
  decode members :=
    match Members.locate? name members 0 with
    | some (position, json) =>
        match decode json with
        | .ok value => .ok value
        | .error fault => .error ⟨position, fault⟩
    | none =>
        match absent with
        | some value => .ok value
        | none => .error ⟨members.length, .mismatch⟩

def required (name : String) (decode : Decoder α) : Fields α := field name none decode

def withDefault (name : String) (default : α) (decode : Decoder α) : Fields α :=
  field name (some default) decode

def optional (name : String) (decode : Decoder α) : Fields (Option α) :=
  withDefault name none (Decoder.nullable decode)

/-- The first member that is at fault in itself: it repeats one of the names, or has another name and cannot
be passed over. -/
def strayFault? (names seen : List String) (position : Nat) : Members → Option Located
  | [] => none
  | (key, json) :: rest =>
      if key ∈ names then
        if key ∈ seen then some ⟨position, .mismatch⟩
        else strayFault? names (key :: seen) (position + 1) rest
      else if json.isSkippableMember then strayFault? names seen (position + 1) rest
      else some ⟨position, .malformed⟩

def ofMembers (fields : Fields α) (members : Members) : Except Fault α :=
  match strayFault? fields.names [] 0 members, fields.decode members with
  | none, .ok value => .ok value
  | none, .error found => .error found.fault
  | some stray, .ok _ => .error stray.fault
  | some stray, .error found => .error (stray.earlier found).fault

def ofItems (format : Format) (fields : Fields α) (items : List Json) : Except Fault α :=
  match fields.decode (fields.names.zip items) with
  | .error found => .error found.fault
  | .ok value =>
      if items.length ≤ fields.names.length || format.allowsSurplus then .ok value
      else .error .malformed

def record (format : Format) (fields : Fields α) : Decoder α
  | .object members => fields.ofMembers members
  | .array items => fields.ofItems format items
  | other => .error (Decoder.wrongKind other)

end Fields

def Decoder.document {α : Type} (decode : Decoder α) (document : Json.Document) : Except Fault α :=
  match decode document.root with
  | .error fault => .error fault
  | .ok value => if document.complete then .ok value else .error .malformed

def Decoder.text {α : Type} (decode : Decoder α) (text : String) : Except Fault α :=
  decode.document (Json.read text)

end MockAudit
