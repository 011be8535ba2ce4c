import MockAudit.Settings.Basic
import MockAudit.Workspace.Path

/-!
# Command line arguments

A subcommand opens a new level with flags of its own; the flags for verbosity and configuration are known at every
level, and of two values the one at the deeper level counts. The first argument that is wrong, or that asks for help or
for the version, ends the reading.
-/

namespace MockAudit

inductive OutputFormat where
  | text
  | json
  | compact
  | rich
deriving DecidableEq

def OutputFormat.ofWord? (word : String) : Option OutputFormat :=
  if word = "text" then some .text
  else if word = "json" then some .json
  else if word = "compact" then some .compact
  else if word = "rich" then some .rich
  else none

namespace Command

inductive Flag where
  | verbose | config | format | rules | exclude | scope | project | file | force | help | version
deriving DecidableEq

namespace Flag

def all : List Flag :=
  [.verbose, .config, .format, .rules, .exclude, .scope, .project, .file, .force, .help, .version]

def long : Flag → String
  | .verbose => "verbose"
  | .config => "config"
  | .format => "format"
  | .rules => "rules"
  | .exclude => "exclude"
  | .scope => "scope"
  | .project => "project"
  | .file => "file"
  | .force => "force"
  | .help => "help"
  | .version => "version"

def letter? : Flag → Option Char
  | .verbose => some 'v'
  | .config => some 'c'
  | .format => some 'f'
  | .exclude => some 'e'
  | .help => some 'h'
  | .version => some 'V'
  | _ => none

def takesValue : Flag → Bool
  | .verbose | .force | .help | .version => false
  | _ => true

def isRepeatable : Flag → Bool
  | .exclude => true
  | _ => false

end Flag

inductive Level where
  | top
  | check
  | listRules
  | init
  | help (about : Bool)
deriving DecidableEq

namespace Level

def ofWord? (word : String) : Option Level :=
  if word = "check" then some .check
  else if word = "list-rules" then some .listRules
  else if word = "init" then some .init
  else if word = "help" then some (.help false)
  else none

def knows : Level → Flag → Bool
  | .help _, _ => false
  | _, .verbose | _, .config | _, .help => true
  | .top, .version | .init, .force => true
  | .check, .format | .check, .rules | .check, .exclude | .check, .scope | .check, .project
  | .check, .file => true
  | _, _ => false

def flagNamed? (level : Level) (name : List Char) : Option Flag :=
  Flag.all.find? fun flag => level.knows flag && flag.long.toList == name

def flagLettered? (level : Level) (letter : Char) : Option Flag :=
  Flag.all.find? fun flag => level.knows flag && flag.letter? == some letter

end Level

structure Choices where
  verbose : Bool := false
  config : Option Path := none
  path : Option Path := none
  format : OutputFormat := .text
  rules : Option String := none
  exclude : List String := []
  scope : Option Scope := none
  project : Option String := none
  file : Option Path := none
  force : Bool := false
deriving DecidableEq

inductive Stop where
  | rejected
  | help
  | version
deriving DecidableEq

def Choices.apply (choices : Choices) (flag : Flag) (value : String) : Except Stop Choices :=
  match flag with
  | .verbose => .ok { choices with verbose := true }
  | .config => if value.isEmpty then .error .rejected else .ok { choices with config := some value }
  | .format =>
      match OutputFormat.ofWord? value with
      | some format => .ok { choices with format }
      | none => .error .rejected
  | .rules => .ok { choices with rules := some value }
  | .exclude => .ok { choices with exclude := choices.exclude ++ [value] }
  | .scope =>
      match Scope.ofWord? value with
      | some scope => .ok { choices with scope := some scope }
      | none => .error .rejected
  | .project => .ok { choices with project := some value }
  | .file => if value.isEmpty then .error .rejected else .ok { choices with file := some value }
  | .force => .ok { choices with force := true }
  | .help => .error .help
  | .version => .error .version

structure Reading where
  level : Level := .top
  plainOnly : Bool := false
  pending : Option Flag := none
  held : Option (Flag × String) := none
  given : List Flag := []
  choices : Choices := {}
  faulty : Bool := false

namespace Reading

def looksLikeFlag (argument : List Char) : Bool := argument.head? == some '-' && argument != ['-']

def give (reading : Reading) (flag : Flag) (value : String) : Except Stop Reading :=
  if reading.given.contains flag && !flag.isRepeatable then .error .rejected
  else
    (reading.choices.apply flag value).map fun choices =>
      { reading with choices, given := flag :: reading.given }

def settle (reading : Reading) : Except Stop Reading :=
  match reading.held with
  | none => .ok reading
  | some (flag, value) => { reading with held := none }.give flag value

/-- Go from the top to the level of a subcommand. A wrong value that is held counts at the end. -/
def descend (reading : Reading) (level : Level) : Reading :=
  match reading.settle with
  | .ok reading => { reading with level, given := [] }
  | .error _ => { reading with level, given := [], held := none, faulty := true }

def readLetters (reading : Reading) : List Char → Except Stop Reading
  | [] => .ok reading
  | letter :: rest =>
      match reading.level.flagLettered? letter with
      | none => .error .rejected
      | some flag =>
          if flag.takesValue then
            match rest with
            | [] => .ok { reading with pending := some flag }
            | '=' :: value => reading.give flag (String.ofList value)
            | value => reading.give flag (String.ofList value)
          else
            match reading.give flag "" with
            | .error stop => .error stop
            | .ok reading => reading.readLetters rest

def readLong (reading : Reading) (text : List Char) : Except Stop Reading :=
  let (name, value) := text.span (· != '=')
  match reading.level.flagNamed? name, value with
  | none, _ => .error .rejected
  | some flag, [] =>
      if flag.takesValue then .ok { reading with pending := some flag } else reading.give flag ""
  | some flag, _ :: value =>
      if flag.takesValue then reading.give flag (String.ofList value) else .error .rejected

def readPlain (reading : Reading) (argument : String) : Except Stop Reading :=
  match reading.level with
  | .top =>
      match Level.ofWord? argument with
      | some level => if reading.plainOnly then .error .rejected else .ok (reading.descend level)
      | none => .error .rejected
  | .check =>
      reading.settle.bind fun reading =>
        if reading.choices.path.isSome || argument.isEmpty then .error .rejected
        else .ok { reading with choices := { reading.choices with path := some argument } }
  | .listRules | .init => .error .rejected
  | .help about =>
      if !about && (Level.ofWord? argument).isSome then .ok { reading with level := .help true }
      else .error .rejected

/-- Are arguments plain whatever they look like? There are no flags where help is asked for. -/
def takesAnyAsPlain (reading : Reading) : Bool :=
  match reading.level with
  | .help _ => true
  | _ => reading.plainOnly

def read (reading : Reading) (argument : String) : Except Stop Reading :=
  let chars := argument.toList
  match reading.pending with
  | some flag =>
      if looksLikeFlag chars then .error .rejected
      else .ok { reading with pending := none, held := some (flag, argument) }
  | none =>
      if reading.takesAnyAsPlain || !looksLikeFlag chars then reading.readPlain argument
      else
        match chars with
        | ['-', '-'] => .ok { reading with plainOnly := true }
        | '-' :: '-' :: text => reading.settle.bind fun reading => reading.readLong text
        | _ => reading.settle.bind fun reading => reading.readLetters (chars.drop 1)

end Reading

inductive Invocation where
  | check (path : Path) (choices : Choices)
  | listRules
  | init (force : Bool)
deriving DecidableEq

def Reading.finish (reading : Reading) : Except Stop Invocation :=
  match reading.level with
  | .help _ => .error .help
  | level =>
      if reading.pending.isSome then .error .rejected
      else
        reading.settle.bind fun reading =>
          if reading.faulty then .error .rejected
          else
            match level with
            | .check => .ok (.check (reading.choices.path.getD ".") reading.choices)
            | .listRules => .ok .listRules
            | .init => .ok (.init reading.choices.force)
            | _ => .error .rejected

def parseArguments (arguments : List String) : Except Stop Invocation :=
  (arguments.foldlM Reading.read {}).bind Reading.finish

end Command
end MockAudit
