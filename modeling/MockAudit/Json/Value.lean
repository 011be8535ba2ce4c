/-!
# JSON values

Where reading a text breaks off, the tree holds an `unreadable` leaf: as the value itself, as one more item of the list,
or as the value of one more member with an empty key. Whoever walks the tree in order meets the break exactly where the
text has it.
-/

namespace MockAudit

inductive Obstacle where
  | broken
  | noKey
  /-- The text breaks off because a value that is no string, or the start of one, stands for a key. -/
  | wrongKey
  | unusable
  /-- The key there is well formed but cannot be used; it can be passed over only with its whole object. -/
  | unusableKey
deriving DecidableEq

def Obstacle.isPassable : Obstacle → Bool
  | .broken | .noKey | .wrongKey => false
  | .unusable | .unusableKey => true

inductive Json where
  | null
  | bool (value : Bool)
  | int (value : Int)
  | decimal (text : String)
  | string (value : String)
  | array (items : List Json)
  | object (members : List (String × Json))
  | unreadable (obstacle : Obstacle)

namespace Json

instance : Inhabited Json := ⟨.null⟩

def nat (n : Nat) : Json := .int n

mutual

def isSkippable : Json → Bool
  | .array items => areSkippable items
  | .object members => areSkippableMembers members
  | .unreadable obstacle => obstacle.isPassable
  | _ => true

def areSkippable : List Json → Bool
  | [] => true
  | item :: rest => item.isSkippable && areSkippable rest

def areSkippableMembers : List (String × Json) → Bool
  | [] => true
  | (_, value) :: rest => value.isSkippable && areSkippableMembers rest

end

mutual

def isReadable : Json → Bool
  | .array items => areReadable items
  | .object members => areReadableMembers members
  | .unreadable _ => false
  | _ => true

def areReadable : List Json → Bool
  | [] => true
  | item :: rest => item.isReadable && areReadable rest

def areReadableMembers : List (String × Json) → Bool
  | [] => true
  | (_, value) :: rest => value.isReadable && areReadableMembers rest

end

def isSkippableMember : Json → Bool
  | .unreadable .unusableKey => false
  | json => json.isSkippable

end Json
end MockAudit
