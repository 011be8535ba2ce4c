import MockAudit.Settings.Document
import MockAudit.Workspace.FileTree

namespace MockAudit

inductive SettingsSource where
  | explicit (path : Path)
  | project (path : Path)
  | user (path : Path)
  | default
deriving DecidableEq

namespace SettingsSource

def path? : SettingsSource → Option Path
  | .explicit path | .project path | .user path => some path
  | .default => none

def projectNames : List String := ["mocklint.toml", ".mocklint.toml"]

def userName : String := "config.toml"

def inDirectory? (fs : FileSystem) (directory : Path) : Option Path :=
  (projectNames.map directory.join).find? fs.hasFile

/-- The configuration file in a directory or in the nearest parent of its path that has one. -/
def ofProject? (fs : FileSystem) (directory : Path) : Option Path :=
  directory.ancestors.findSome? (inDirectory? fs)

def ofUser? (fs : FileSystem) (userDirectory : Option Path) : Option Path :=
  (userDirectory.map (·.join userName)).filter fs.isPresent

def resolve (fs : FileSystem) (userDirectory : Option Path) (directory : Path)
    (asked : Option Path) : SettingsSource :=
  match asked, ofProject? fs directory, ofUser? fs userDirectory with
  | some path, _, _ => .explicit path
  | none, some path, _ => .project path
  | none, none, some path => .user path
  | none, none, none => .default

def load? (fs : FileSystem) (source : SettingsSource) : Option Settings :=
  match source.path? with
  | none => some {}
  | some path => (fs.read path).toOption.bind Settings.ofText?

end SettingsSource
end MockAudit
