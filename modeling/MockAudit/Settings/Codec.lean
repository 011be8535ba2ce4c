import MockAudit.Diagnostic.Codec
import MockAudit.Settings.Basic

namespace MockAudit

open Decoder Fields

def Vocabulary.toJson (v : Vocabulary) : Json :=
  .object
    [("base_type", .string v.baseType), ("mock_annotation", .string v.marker),
      ("reentrant_attribute", .string v.reentrancy), ("instance_accessor", .string v.accessor),
      ("delegate_field", .string v.delegate), ("constructor_name", .string v.constructorName),
      ("import_prefix", .string v.importStem), ("package", .string v.package)]

def Vocabulary.decode (format : Format) : Decoder Vocabulary :=
  let usual : Vocabulary := {}
  record format (Vocabulary.mk <$> withDefault "base_type" usual.baseType string
    <*> withDefault "mock_annotation" usual.marker string
    <*> withDefault "reentrant_attribute" usual.reentrancy string
    <*> withDefault "instance_accessor" usual.accessor string
    <*> withDefault "delegate_field" usual.delegate string
    <*> withDefault "constructor_name" usual.constructorName string
    <*> withDefault "import_prefix" usual.importStem string
    <*> withDefault "package" usual.package string)

def SearchSettings.toJson (search : SearchSettings) : Json :=
  .object
    [("root", .string search.root), ("exclude", .ofList .string search.exclude),
      ("respect_gitignore", .bool search.respectIgnoreFiles),
      ("parallelism", .ofOption .ofWord search.parallelism)]

def SearchSettings.decode (format : Format) : Decoder SearchSettings :=
  let usual : SearchSettings := {}
  record format (SearchSettings.mk <$> withDefault "root" usual.root string
    <*> withDefault "exclude" usual.exclude (list string)
    <*> withDefault "respect_gitignore" usual.respectIgnoreFiles bool
    <*> optional "parallelism" word64)

def RuleSettings.toJson (rule : RuleSettings) : Json :=
  .object
    [("enabled", .ofOption .bool rule.enabled),
      ("severity", .ofOption (fun severity => .string severity.word) rule.severity)]

def RuleSettings.decode (format : Format) : Decoder RuleSettings :=
  record format (RuleSettings.mk <$> optional "enabled" bool
    <*> optional "severity" (Severity.decode format))

def Settings.toJson (settings : Settings) : Json :=
  .object
    [("enabled", .bool settings.enabled), ("scope", .string settings.scope.word),
      ("active_project", .ofOption .string settings.activeProject),
      ("active_file", .ofOption .string settings.activeFile),
      ("preset", .ofOption .string settings.preset), ("analyzer", settings.search.toJson),
      ("framework", settings.vocabulary.toJson),
      ("rules", .ofDictionary RuleSettings.toJson settings.rules)]

def Settings.decode (format : Format) : Decoder Settings :=
  record format (Settings.mk <$> withDefault "enabled" true bool
    <*> withDefault "scope" .workspace (alternative format Scope.ofWord?)
    <*> optional "active_project" string <*> optional "active_file" string
    <*> optional "preset" string
    <*> withDefault "analyzer" {} (SearchSettings.decode format)
    <*> withDefault "framework" {} (Vocabulary.decode format)
    <*> withDefault "rules" .empty (dictionary (RuleSettings.decode format)))

end MockAudit
