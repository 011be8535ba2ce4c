import MockAudit.Workspace.Path

namespace MockAudit

inductive FileTree where
  /-- A file with its text; a file that is no text has none. -/
  | file (text : Option String)
  | directory (entries : List (String × FileTree))

inductive FileError where
  | notFound
  | notDirectory
  | isDirectory
  | notText
deriving DecidableEq

def FileError.message : FileError → String
  | .notFound => "No such file or directory (os error 2)"
  | .notDirectory => "Not a directory (os error 20)"
  | .isDirectory => "Is a directory (os error 21)"
  | .notText => "stream did not contain valid UTF-8"

namespace FileTree

def empty : FileTree := .directory []

def isDirectory : FileTree → Bool
  | .file _ => false
  | .directory _ => true

def entries : FileTree → List (String × FileTree)
  | .file _ => []
  | .directory entries => entries

def text? : FileTree → Option String
  | .file text => text
  | .directory _ => none

def child? (tree : FileTree) (name : String) : Option FileTree := tree.entries.lookup name

def get? : FileTree → List String → Option FileTree
  | tree, [] => some tree
  | tree, name :: rest => (tree.child? name).bind fun child => child.get? rest

def setEntry (name : String) (tree : FileTree) : List (String × FileTree) → List (String × FileTree)
  | [] => [(name, tree)]
  | (other, old) :: rest =>
      if other = name then (name, tree) :: rest else (other, old) :: setEntry name tree rest

def insert (added : FileTree) : List String → FileTree → FileTree
  | [], _ => added
  | name :: rest, tree =>
      let child := (tree.child? name).getD empty
      .directory (setEntry name (insert added rest child) tree.entries)

end FileTree

structure FileSystem where
  root : FileTree
  current : List String

namespace FileSystem

def step (place : List String) (segment : String) : List String :=
  if segment = "" ∨ segment = "." then place
  else if segment = ".." then place.dropLast
  else place ++ [segment]

/-- Follow segments from a place. Only the last one may lead to nothing. -/
def follow (root : FileTree) : List String → List String → Except FileError (List String)
  | place, [] => .ok place
  | place, segment :: rest =>
      match root.get? place with
      | none => .error .notFound
      | some (.file _) => .error .notDirectory
      | some (.directory _) => follow root (step place segment) rest

def locate (fs : FileSystem) (path : Path) : Except FileError (List String) :=
  if path = "" then .error .notFound
  else follow fs.root (if path.isAbsolute then [] else fs.current) path.segments

def find (fs : FileSystem) (path : Path) : Except FileError (List String × FileTree) :=
  match fs.locate path with
  | .error cause => .error cause
  | .ok place =>
      match fs.root.get? place with
      | none => .error .notFound
      | some tree => .ok (place, tree)

def isPresent (fs : FileSystem) (path : Path) : Bool := (fs.find path).toOption.isSome

def hasFile (fs : FileSystem) (path : Path) : Bool :=
  match fs.find path with
  | .ok (_, .file _) => true
  | _ => false

def read (fs : FileSystem) (path : Path) : Except FileError String :=
  match fs.find path with
  | .error cause => .error cause
  | .ok (_, .directory _) => .error .isDirectory
  | .ok (_, .file none) => .error .notText
  | .ok (_, .file (some text)) => .ok text

def write (fs : FileSystem) (path : Path) (text : String) : Except FileError FileSystem :=
  match fs.locate path with
  | .error cause => .error cause
  | .ok place =>
      match fs.root.get? place with
      | some (.directory _) => .error .isDirectory
      | _ => .ok { fs with root := FileTree.insert (.file (some text)) place fs.root }

end FileSystem
end MockAudit
