import MockAudit.Text.Split

namespace MockAudit

abbrev Path := String

inductive Component where
  | root
  | current
  | parent
  | normal (name : String)
deriving DecidableEq

def Component.rank : Component → Nat
  | .root => 0
  | .current => 1
  | .parent => 2
  | .normal _ => 3

def Component.before : Component → Component → Bool
  | .normal a, .normal b => a < b
  | a, b => a.rank < b.rank

namespace Path

def segments (path : Path) : List String := splitText '/' path

def isAbsolute (path : Path) : Bool := path.toList.head? == some '/'

def laterComponent? (segment : String) : Option Component :=
  if segment = "" ∨ segment = "." then none
  else if segment = ".." then some .parent
  else some (.normal segment)

def firstComponent? (path : Path) (segment : String) : Option Component :=
  if path.isAbsolute then some .root
  else if segment = "." then some .current
  else laterComponent? segment

def components (path : Path) : List Component :=
  match path.segments with
  | [] => []
  | first :: rest => (path.firstComponent? first).toList ++ rest.filterMap laterComponent?

def alike (a b : Path) : Bool := a.components == b.components

def componentsLe : List Component → List Component → Bool
  | [], _ => true
  | _ :: _, [] => false
  | a :: as, b :: bs => a.before b || (a == b && componentsLe as bs)

def fileName? (path : Path) : Option String :=
  match path.components.getLast? with
  | some (.normal name) => some name
  | _ => none

def join (base path : Path) : Path :=
  if path.isAbsolute then path
  else if base.isEmpty || base.toList.getLast? == some '/' then base ++ path
  else base ++ "/" ++ path

/-- Drop idle segments from the end of a path whose segments are given last to first. The first segment of a
path is never idle. -/
def dropIdle : List String → List String
  | [] => []
  | [first] => [first]
  | last :: rest => if last = "" ∨ last = "." then dropIdle rest else last :: rest

def ofSegments (segments : List String) : Path :=
  if segments = [""] then "/" else String.intercalate "/" segments

/-- The path without its last component; the empty path and the top have no parent. -/
def parent? (path : Path) : Option Path :=
  match dropIdle path.segments.reverse with
  | [] => none
  | [only] => if only = "" then none else some ""
  | _ :: rest => some (ofSegments (dropIdle rest).reverse)

def parentChain : Nat → Option Path → List Path
  | 0, _ => []
  | _ + 1, none => []
  | fuel + 1, some path => path :: parentChain fuel path.parent?

def ancestors (path : Path) : List Path := parentChain (path.segments.length + 1) (some path)

def unitEnding : String := ".unit.json"

def isUnitDocument (path : Path) : Bool :=
  match path.fileName? with
  | some name => unitEnding.toList.isSuffixOf name.toList
  | none => false

end Path
end MockAudit
