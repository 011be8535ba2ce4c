import MockAudit.Command.Run

namespace MockAudit.Program

open Command

partial def readTree (path : Path) : IO (Option FileTree) := do
  try
    let real ← IO.FS.realPath path
    match (← real.symlinkMetadata).type with
    | .dir =>
        let entries ← (← real.readDir).toList.filterMapM fun entry => do
          return (← readTree entry.path.toString).map fun tree => (entry.fileName, tree)
        return some (.directory entries)
    | .file => return some (.file (String.fromUTF8? (← IO.FS.readBinFile real)))
    | _ => return none
  catch _ => return none

def readAt (fs : FileSystem) (path : Path) : IO FileSystem := do
  let place := path.segments.foldl FileSystem.step (if path.isAbsolute then [] else fs.current)
  match ← readTree (FileSystem.topPath place) with
  | some tree => return { fs with root := FileTree.insert tree place fs.root }
  | none => return fs

def readAll (fs : FileSystem) (paths : List Path) : IO FileSystem := paths.foldlM readAt fs

def outsideFiles (environment : Environment) (path : Path) (choices : Choices) : List Path :=
  path.ancestors.flatMap (fun directory => SettingsSource.projectNames.map directory.join)
    ++ (environment.userDirectory.map (·.join SettingsSource.userName)).toList
    ++ choices.config.toList

def userSettings (environment : Environment) : List Path :=
  match environment.home with
  | some home => [".gitconfig", ".config/git/config"].map home.join
  | none => []

def ignoreFilesAbove (place : List String) : List Path :=
  (List.range place.length).flatMap fun depth =>
    [".ignore", ".gitignore", ".git/info/exclude"].map (FileSystem.topPath (place.take depth)).join

def readDisk (environment : Environment) (fs : FileSystem) : Invocation → IO FileSystem
  | .check path choices => do
      let fs ← readAll fs (outsideFiles environment path choices ++ userSettings environment)
      let fs ← readAll fs (environment.home.map (UserIgnore.path fs)).toList
      match checkSettings environment fs path choices with
      | .error _ => return fs
      | .ok settings =>
          let root := path.join settings.search.root
          let fs ← readAll fs [path, root]
          match fs.locate root with
          | .ok place => readAll fs (ignoreFilesAbove place)
          | .error _ => return fs
  | .listRules => return fs
  | .init _ => readAt fs templatePath

def writeTemplateFile : IO Response := do
  try
    IO.FS.writeFile templatePath template
    return { exit := 0, output := templateNotice }
  catch _ => return .ofError .templateUnwritable

def respond (arguments : List String) : IO Response := do
  match parseArguments arguments with
  | .error stop => return .ofStop stop
  | .ok invocation =>
      let environment : Environment :=
        { home := ← IO.getEnv "HOME", configDirectory := ← IO.getEnv "MOCKLINT_CONFIG_DIR" }
      let current := (Path.segments (← IO.currentDir).toString).filter (!·.isEmpty)
      let fs ← readDisk environment ⟨FileTree.insert .empty current .empty, current⟩ invocation
      let response := (answer environment fs invocation).1
      match invocation with
      | .init _ => if response.exit == 0 then writeTemplateFile else return response
      | _ => return response

end MockAudit.Program

def main (arguments : List String) : IO UInt32 := do
  let response ← MockAudit.Program.respond arguments
  IO.print response.output
  for problem in response.problems do
    IO.eprintln problem
  if let some fatal := response.fatal then
    IO.eprintln ("Error: " ++ fatal)
  return UInt32.ofNat response.exit
