import MockAudit.Idiom.Vocabulary
import MockAudit.Rule.Catalogue

namespace MockAudit

inductive Scope where
  | workspace
  | project
  | file
  | disabled
deriving DecidableEq

def Scope.word : Scope → String
  | .workspace => "workspace"
  | .project => "project"
  | .file => "file"
  | .disabled => "disabled"

def Scope.ofWord? (word : String) : Option Scope :=
  if word = "workspace" then some .workspace
  else if word = "project" then some .project
  else if word = "file" then some .file
  else if word = "disabled" then some .disabled
  else none

structure SearchSettings where
  root : String := "."
  exclude : List String := ["**/target/**", "**/build/**"]
  respectIgnoreFiles : Bool := true
  parallelism : Option UInt64 := none
deriving DecidableEq

structure RuleSettings where
  enabled : Option Bool := none
  severity : Option Severity := none
deriving DecidableEq

structure Settings where
  enabled : Bool := true
  scope : Scope := .workspace
  activeProject : Option String := none
  activeFile : Option String := none
  preset : Option String := none
  search : SearchSettings := {}
  vocabulary : Vocabulary := {}
  rules : Dictionary RuleSettings := .empty
deriving DecidableEq

namespace Settings

def isActive (settings : Settings) : Bool := settings.enabled && settings.scope != .disabled

def isRuleEnabled (settings : Settings) (name : String) : Bool :=
  ((settings.rules.get? name).bind (·.enabled)).getD true

def ruleSeverity? (settings : Settings) (name : String) : Option Severity :=
  (settings.rules.get? name).bind (·.severity)

def presetName (settings : Settings) : String := settings.preset.getD "recommended"

def preset? (settings : Settings) : Option Rule.Preset := Rule.Preset.ofName? settings.presetName

end Settings
end MockAudit
