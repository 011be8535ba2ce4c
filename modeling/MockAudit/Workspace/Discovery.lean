import MockAudit.Workspace.Exclusion
import MockAudit.Workspace.FileTree
import MockAudit.Workspace.IgnoreRule

/-!
# Discovery of unit documents

A search does not enter an ignored directory. Three kinds of ignore file count, in this order: `.ignore`, `.gitignore`
and `info/exclude` of the repository; of each kind the innermost directory that has something to say about a path
decides. The user's own ignore file comes last, and it counts even where the others are not respected.
-/

namespace MockAudit

inductive SearchError where
  | badExclusion (pattern : String)
  | unreachable (cause : FileError)
  | badIgnoreFile (directory : Path)
deriving DecidableEq

structure IgnoreLayer where
  base : Path
  plain : IgnoreFile
  git : IgnoreFile
  exclude : IgnoreFile

def dropStart (start text : String) : String :=
  if start.toList.isPrefixOf text.toList then String.ofList (text.toList.drop start.length) else text

def dropDotSlash (path : Path) : Path := dropStart "./" path

namespace IgnoreLayer

def rulesOf (directory : FileTree) (names : List String) : IgnoreFile :=
  match (directory.get? names).bind FileTree.text? with
  | some text => IgnoreFile.ofText text
  | none => .empty

def linkWord : String := "gitdir: "

def firstLine? (text : String) : Option String := (textLines text.toList).head?.map String.ofList

/-- The path of a repository that another one shares its files with; a path that starts with a dot continues
that of the other. -/
def sharedRepository (repository line : Path) : Path :=
  if line.toList.head? == some '.' then repository.join line else line

/-- The exclusions of the repository that a link leads to. Its path and the shared one start from the current
directory, not from that of the link. -/
def linkedExclusions (fs : FileSystem) (link : String) : IgnoreFile :=
  match firstLine? link with
  | none => .empty
  | some line =>
      if !linkWord.toList.isPrefixOf line.toList then .empty
      else
        let repository : Path := dropStart linkWord line
        match fs.read (repository.join "commondir") with
        | .error .isDirectory => ⟨[], false⟩
        | .error _ => .empty
        | .ok text =>
            match firstLine? text with
            | none => .empty
            | some shared =>
                match fs.read ((sharedRepository repository shared).join "info/exclude") with
                | .ok rules => IgnoreFile.ofText rules
                | .error _ => .empty

def exclusionsOf (fs : FileSystem) (directory : FileTree) : IgnoreFile :=
  match (directory.child? ".git").bind FileTree.text? with
  | some link => linkedExclusions fs link
  | none => rulesOf directory [".git", "info", "exclude"]

def ofDirectory (fs : FileSystem) (respected : Bool) (path : Path) (directory : FileTree) : IgnoreLayer :=
  let base := dropDotSlash path
  if respected then
    { base
      plain := rulesOf directory [".ignore"]
      git := rulesOf directory [".gitignore"]
      exclude := exclusionsOf fs directory }
  else ⟨base, .empty, .empty, .empty⟩

def isSound (layer : IgnoreLayer) : Bool := layer.plain.sound && layer.git.sound && layer.exclude.sound

/-- A path as seen from a directory. A plain name, and any path seen from the current directory, stays. -/
def relative (base path : Path) : Path :=
  let path := dropDotSlash path
  if base.alike "." || !path.toList.contains '/' then path
  else if base.toList.isPrefixOf path.toList then dropStart "/" (dropStart base path)
  else path

def verdict? (layers : List IgnoreLayer) (file : IgnoreLayer → IgnoreFile) (path : Path)
    (isDirectory : Bool) : Option Bool :=
  layers.findSome? fun layer => (file layer).verdict? (relative layer.base path) isDirectory

end IgnoreLayer

def FileSystem.topPath (place : List String) : Path := "/" ++ String.intercalate "/" place

structure Search where
  fs : FileSystem
  root : Path
  absolute : Path
  respected : Bool
  above : List IgnoreLayer
  user : IgnoreFile

namespace Search

def fromTop (search : Search) (path : Path) : Path :=
  if search.root.alike "." then search.absolute.join path
  else search.absolute.join (dropStart "/" (dropStart (dropDotSlash search.root) path))

def isIgnored (search : Search) (layers : List IgnoreLayer) (path : Path) (isDirectory : Bool) : Bool :=
  let path := dropDotSlash path
  let top := search.fromTop path
  let said (file : IgnoreLayer → IgnoreFile) : Option Bool :=
    IgnoreLayer.verdict? layers file path isDirectory
      <|> IgnoreLayer.verdict? search.above file top isDirectory
  let user := search.user.verdict? (IgnoreLayer.relative (FileSystem.topPath search.fs.current) path) isDirectory
  (said (·.plain) <|> said (·.git) <|> said (·.exclude) <|> user).getD false

structure Visit where
  path : Path
  below : Path
deriving DecidableEq

mutual

def visits (search : Search) (layers : List IgnoreLayer) (place : Visit) : FileTree → List Visit
  | .file _ => [place]
  | .directory entries =>
      let layer := IgnoreLayer.ofDirectory search.fs search.respected place.path (.directory entries)
      search.visitEntries (layer :: layers) place entries

def visitEntries (search : Search) (layers : List IgnoreLayer) (place : Visit) :
    List (String × FileTree) → List Visit
  | [] => []
  | (name, tree) :: rest =>
      let entry : Visit := ⟨place.path.join name, place.below.join name⟩
      (if search.isIgnored layers entry.path tree.isDirectory then []
        else search.visits layers entry tree)
        ++ search.visitEntries layers place rest

end

end Search

def FileSystem.layersAbove (fs : FileSystem) (respected : Bool) (place : List String) : List IgnoreLayer :=
  (List.range place.length).reverse.map fun depth =>
    let above := place.take depth
    IgnoreLayer.ofDirectory fs respected (FileSystem.topPath above) ((fs.root.get? above).getD .empty)

def standardInput : Path := "-"

structure SearchRequest where
  root : Path
  exclude : List String
  respected : Bool
  user : IgnoreFile

namespace SearchRequest

def exclusions (request : SearchRequest) : Except SearchError (List (Pattern Char)) :=
  request.exclude.mapM fun text =>
    match Exclusion.ofText? text with
    | some pattern => .ok pattern
    | none => .error (.badExclusion text)

def visited (fs : FileSystem) (request : SearchRequest) : Except SearchError (List Search.Visit) :=
  if request.root.alike standardInput then .ok []
  else
      match fs.find request.root with
      | .error cause => .error (.unreachable cause)
      | .ok (place, tree) =>
          let above := if tree.isDirectory then fs.layersAbove request.respected place else []
          match above.reverse.find? (fun layer => !layer.isSound) with
          | some layer => .error (.badIgnoreFile layer.base)
          | none =>
              let search : Search :=
                { fs
                  root := request.root
                  absolute := FileSystem.topPath place
                  respected := request.respected
                  above
                  user := request.user }
              .ok (search.visits [] ⟨request.root, ""⟩ tree)

def wanted (exclusions : List (Pattern Char)) (visit : Search.Visit) : Bool :=
  visit.path.isUnitDocument && !exclusions.any fun pattern => pattern.accepts visit.below.toList

def discover (fs : FileSystem) (request : SearchRequest) : Except SearchError (List Path) :=
  match request.exclusions with
  | .error cause => .error cause
  | .ok exclusions =>
      (visited fs request).map fun visits =>
        let found := (visits.filter (wanted exclusions)).map (·.path)
        found.mergeSort fun a b => Path.componentsLe a.components b.components

end SearchRequest
end MockAudit
