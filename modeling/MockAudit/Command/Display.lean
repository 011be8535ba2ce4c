import MockAudit.Command.Arguments
import MockAudit.Diagnostic.Codec
import MockAudit.Json.Writer
import MockAudit.Text.Split

namespace MockAudit

structure Shown where
  output : String
  problems : List String
deriving DecidableEq

def padTo (width : Nat) (text : String) : String :=
  text ++ String.ofList (List.replicate (width - text.length) ' ')

namespace Report

def problems (report : Report) : List String :=
  report.failures.map (fun failure => "could not analyze " ++ failure.path ++ ": " ++ failure.message)
    ++ if report.isCancelled then ["cancelled, " ++ report.skipped.length.repr ++ " unit(s) skipped"] else []

def summaryColour (report : Report) : String :=
  if report.count .error > 0 then "\x1b[31m"
  else if report.count .warning > 0 then "\x1b[33m"
  else "\x1b[32m"

def summary (report : Report) : String :=
  report.summaryColour ++ "Found " ++ (report.count .error).repr ++ " error(s), "
    ++ (report.count .warning).repr ++ " warning(s) in " ++ report.files.length.repr ++ " file(s)"
    ++ Diagnostic.plainColour ++ "\n"

end Report

namespace Diagnostic

def listing (d : Diagnostic) (source : String) : String :=
  let quoted := ((splitText '\n' source)[d.location.line.toNat - 1]?).getD ""
  let help := match d.suggestion with
    | some suggestion => "  help: " ++ suggestion ++ "\n"
    | none => ""
  d.headline ++ "\n  at " ++ d.location.text ++ " (" ++ d.rule ++ ")\n  | " ++ quoted ++ "\n" ++ help

end Diagnostic

def Report.display (report : Report) (format : OutputFormat) (source? : String → Option String) : Shown :=
  match format with
  | .text =>
      let shown := report.diagnostics.map fun d => d.paragraph true ++ "\n"
      ⟨String.join shown ++ report.summary, report.problems⟩
  | .json => ⟨report.toJson.pretty ++ "\n", []⟩
  | .compact => ⟨String.join (report.diagnostics.map fun d => d.line ++ "\n"), report.problems⟩
  | .rich =>
      let shown := report.files.flatMap fun file =>
        file.diagnostics.map fun d =>
          match source? file.path with
          | some source => d.listing source ++ "\n"
          | none => d.line ++ "\n"
      ⟨String.join shown ++ report.summary, report.problems⟩

def ruleTable : String :=
  let row (code level name description : String) : String :=
    padTo 8 code ++ " " ++ padTo 8 level ++ " " ++ padTo 32 name ++ " " ++ description ++ "\n"
  let rows := Rule.catalogue.map fun rule =>
    row rule.code rule.severity.word rule.name rule.description
  "Available rules:\n\n" ++ row "Code" "Level" "Name" "Description"
    ++ String.ofList (List.replicate 96 '-') ++ "\n" ++ String.join rows
    ++ "\nPresets:\n"
    ++ "  recommended  - ML001..ML007 (default)\n"
    ++ "  errors-only  - ML002, ML003, ML007\n"
    ++ "\nUse --rules to filter specific rules, e.g.:\n"
    ++ "  mocklint check --rules private-mock-method,unused-mock-instance\n"
    ++ "  mocklint check --rules ML002,ML003\n"

end MockAudit
