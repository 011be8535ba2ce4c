import MockAudit.Analysis.Batch
import MockAudit.Settings.Basic
import MockAudit.Workspace.FileTree

namespace MockAudit

structure Document where
  path : Path
  content : Except FileError String

namespace Document

def ofFile (fs : FileSystem) (path : Path) : Document := ⟨path, fs.read path⟩

def text (document : Document) : Except LoadError String :=
  match document.content with
  | .ok text => .ok text
  | .error cause => .error (.unreadable document.path cause.message)

def header (document : Document) : Except LoadError Header :=
  document.text.bind (loadHeader document.path)

def load (document : Document) : Except LoadError CompilationUnit :=
  document.text.bind (loadDocument document.path)

def provider (document : Document) : Provider := ⟨document.path, document.load, false⟩

end Document

namespace Settings

/-- Does project or file scope select a unit with this header? Without an active project it selects none. -/
def selects (settings : Settings) (header : Header) : Bool :=
  match settings.activeProject with
  | none => false
  | some project =>
      header.project == some project
        && match settings.scope, settings.activeFile with
          | .file, some file => Path.alike file header.path
          | .file, none => false
          | _, _ => true

def covers (settings : Settings) (document : Document) : Bool :=
  match settings.scope with
  | .workspace => true
  | .disabled => false
  | .project | .file =>
      match document.header with
      | .ok header => settings.selects header
      | .error _ => true

def inScope (settings : Settings) (documents : List Document) : List Document :=
  documents.filter settings.covers

end Settings
end MockAudit
