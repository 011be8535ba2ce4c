import MockAudit.Diagnostic.Basic

namespace MockAudit

structure FileReport where
  path : String
  diagnostics : List Diagnostic
deriving DecidableEq

structure Failure where
  path : String
  message : String
deriving DecidableEq

inductive Status where
  | completed
  | cancelled
deriving DecidableEq

def Status.word : Status → String
  | .completed => "completed"
  | .cancelled => "cancelled"

structure Report where
  files : List FileReport := []
  failures : List Failure := []
  skipped : List String := []
  status : Status := .completed
deriving DecidableEq

namespace Report

def diagnostics (report : Report) : List Diagnostic := report.files.flatMap (·.diagnostics)

def count (report : Report) (severity : Severity) : Nat :=
  report.diagnostics.countP (·.severity == severity)

def hasErrors (report : Report) : Bool := report.diagnostics.any (·.severity == .error)

def isCancelled (report : Report) : Bool := report.status == .cancelled

end Report
end MockAudit
