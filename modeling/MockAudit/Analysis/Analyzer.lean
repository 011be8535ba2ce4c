import MockAudit.Analysis.Walk
import MockAudit.Settings.Basic

namespace MockAudit

inductive SetupError where
  | unknownPreset (name : String)
deriving DecidableEq

def SetupError.message : SetupError → String
  | .unknownPreset name =>
      "unknown preset `" ++ name ++ "`. Valid presets: recommended, errors-only"

def Rule.isWantedBy (rule : Rule) (wanted : List String) : Bool :=
  wanted.any fun entry => rule.name == entry || rule.code == entry

def Settings.resolvePreset (settings : Settings) : Except SetupError Rule.Preset :=
  match settings.preset? with
  | some preset => .ok preset
  | none => .error (.unknownPreset settings.presetName)

/-- The rules to run: those that a filter asks for, or without a filter those of the preset. Entries of the
filter that name no rule have no effect. -/
def Settings.selectRules (settings : Settings) (filter : Option (List String)) :
    Except SetupError (List Rule) :=
  match filter with
  | some wanted => .ok (Rule.catalogue.filter fun rule => rule.isWantedBy wanted)
  | none => settings.resolvePreset.map (·.rules)

structure Analyzer where
  rules : List Rule
  settings : Settings

namespace Analyzer

def build (settings : Settings) (filter : Option (List String)) : Except SetupError Analyzer :=
  (settings.selectRules filter).map fun rules => ⟨rules, settings⟩

def regrade (settings : Settings) (d : Diagnostic) : Diagnostic :=
  match settings.ruleSeverity? d.rule with
  | some severity => { d with severity }
  | none => d

def analyze (analyzer : Analyzer) (unit : CompilationUnit) : List Diagnostic :=
  let enabled := analyzer.rules.filter fun rule => analyzer.settings.isRuleEnabled rule.name
  (walk unit analyzer.settings.vocabulary enabled).map (regrade analyzer.settings)

end Analyzer
end MockAudit
