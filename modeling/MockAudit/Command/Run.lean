import MockAudit.Command.Display
import MockAudit.Command.Template
import MockAudit.Workspace.Discovery
import MockAudit.Workspace.Document
import MockAudit.Workspace.SettingsSource
import MockAudit.Workspace.UserIgnore

namespace MockAudit.Command

structure Environment where
  home : Option Path := none
  configDirectory : Option Path := none

namespace Environment

def userDirectory (environment : Environment) : Option Path :=
  environment.configDirectory <|> environment.home.map (·.join ".mocklint")

end Environment

inductive CommandError where
  | badSettings (path : Path)
  | badSearch (root : Path)
  | badSetup (cause : SetupError)
  | templateExists
  | templateUnwritable
deriving DecidableEq

def CommandError.message : CommandError → String
  | .badSettings path => "Failed to load config: " ++ path
  | .badSearch root => "Failed to search " ++ root
  | .badSetup _ => "Failed to build analyzer"
  | .templateExists =>
      "Configuration file already exists at " ++ templatePath ++ ". Use --force to overwrite."
  | .templateUnwritable => "Failed to write " ++ templatePath

def Choices.override (choices : Choices) (settings : Settings) : Settings :=
  { settings with
    search := { settings.search with exclude := settings.search.exclude ++ choices.exclude }
    scope := choices.scope.getD settings.scope
    activeProject := choices.project <|> settings.activeProject
    activeFile := choices.file <|> settings.activeFile }

def Choices.filter (choices : Choices) : Option (List String) :=
  choices.rules.map fun rules => ((splitText ',' rules).map trimBlanks).filter (!·.isEmpty)

def checkSettings (environment : Environment) (fs : FileSystem) (path : Path) (choices : Choices) :
    Except CommandError Settings :=
  let source := SettingsSource.resolve fs environment.userDirectory path choices.config
  match source.load? fs with
  | some settings => .ok (choices.override settings)
  | none => .error (.badSettings (source.path?.getD ""))

def checkDocuments (environment : Environment) (fs : FileSystem) (path : Path) (settings : Settings) :
    Except CommandError (List Document) :=
  let request : SearchRequest :=
    { root := path.join settings.search.root
      exclude := settings.search.exclude
      respected := settings.search.respectIgnoreFiles
      user := UserIgnore.rules fs environment.home }
  match request.discover fs with
  | .ok found => .ok (found.map (Document.ofFile fs))
  | .error _ => .error (.badSearch request.root)

/-- The report of a check: settings first, then the search, then the analyzer. Nothing is searched when the
settings are inactive. -/
def check (environment : Environment) (fs : FileSystem) (path : Path) (choices : Choices) :
    Except CommandError Report := do
  let settings ← checkSettings environment fs path choices
  if !settings.isActive then return {}
  let documents ← checkDocuments environment fs path settings
  match Analyzer.build settings choices.filter with
  | .error cause => throw (.badSetup cause)
  | .ok analyzer =>
      let providers := (settings.inScope documents).map Document.provider
      return (analyzer.batch false providers).1

def writeTemplate (fs : FileSystem) (force : Bool) : Except CommandError FileSystem :=
  if fs.isPresent templatePath && !force then .error .templateExists
  else
    match fs.write templatePath template with
    | .ok changed => .ok changed
    | .error _ => .error .templateUnwritable

structure Response where
  exit : Nat
  output : String := ""
  problems : List String := []
  fatal : Option String := none
deriving DecidableEq

def Response.ofError (cause : CommandError) : Response := { exit := 1, fatal := some cause.message }

def versionText : String := "mocklint 0.2.0\n"

def usageText : String :=
  "Usage: mocklint [-v] [-c CONFIG] COMMAND\n\n"
    ++ "Commands:\n"
    ++ "  check [PATH]   check exported unit documents (*.unit.json)\n"
    ++ "                 -f text|json|compact|rich, --rules RULES, -e EXCLUDE,\n"
    ++ "                 --scope workspace|project|file|disabled, --project NAME, --file PATH\n"
    ++ "  list-rules     list available rules\n"
    ++ "  init           write a configuration file; --force overwrites one\n"
    ++ "  help           show this text\n"

def Response.ofStop : Stop → Response
  | .rejected => { exit := 2, problems := ["error: invalid arguments, see mocklint help"] }
  | .help => { exit := 0, output := usageText }
  | .version => { exit := 0, output := versionText }

def answer (environment : Environment) (fs : FileSystem) : Invocation → Response × FileSystem
  | .check path choices =>
      match check environment fs path choices with
      | .error cause => (.ofError cause, fs)
      | .ok report =>
          let shown := report.display choices.format fun file => (fs.read (path.join file)).toOption
          ({ exit := if report.hasErrors then 1 else 0
             output := shown.output
             problems := shown.problems }, fs)
  | .listRules => ({ exit := 0, output := ruleTable }, fs)
  | .init force =>
      match writeTemplate fs force with
      | .ok changed => ({ exit := 0, output := templateNotice }, changed)
      | .error cause => (.ofError cause, fs)

def run (environment : Environment) (fs : FileSystem) (arguments : List String) : Response × FileSystem :=
  match parseArguments arguments with
  | .error stop => (.ofStop stop, fs)
  | .ok invocation => answer environment fs invocation

end MockAudit.Command
