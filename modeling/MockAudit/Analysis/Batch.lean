import MockAudit.Analysis.Analyzer
import MockAudit.Diagnostic.Report
import MockAudit.Unit.Decoding

namespace MockAudit

inductive LoadError where
  | unreadable (path cause : String)
  | undecodable (path : String) (fault : Fault)
  | invalid (path message : String)
deriving DecidableEq

def Fault.message : Fault → String
  | .malformed => "the text is not well-formed JSON"
  | .mismatch => "the JSON text does not describe a unit"

def LoadError.message : LoadError → String
  | .unreadable path cause => "Failed to read " ++ path ++ ": " ++ cause
  | .undecodable path fault => "Invalid unit in " ++ path ++ ": " ++ fault.message
  | .invalid path message => "Invalid unit in " ++ path ++ ": " ++ message

structure Provider where
  path : String
  load : Except LoadError CompilationUnit
  cancels : Bool := false

def Provider.ofUnit (unit : CompilationUnit) : Provider := ⟨unit.path, .ok unit, false⟩

def loadDocument (path content : String) : Except LoadError CompilationUnit :=
  match CompilationUnit.ofText content with
  | .ok unit => .ok unit
  | .error (.undecodable fault) => .error (.undecodable path fault)
  | .error (.invalid defect) => .error (.invalid path defect.message)

def loadHeader (path content : String) : Except LoadError Header :=
  match Header.ofText content with
  | .ok header => .ok header
  | .error fault => .error (.undecodable path fault)

inductive Outcome where
  | analysed (file : FileReport)
  | failed (failure : Failure)
  | skipped (path : String)
deriving DecidableEq

namespace Analyzer

def outcome (analyzer : Analyzer) (cancelled : Bool) (provider : Provider) : Outcome :=
  if cancelled then .skipped provider.path
  else
    match provider.load with
    | .ok unit => .analysed ⟨unit.path, analyzer.analyze unit⟩
    | .error cause => .failed ⟨provider.path, cause.message⟩

def outcomes (analyzer : Analyzer) : Bool → List Provider → List Outcome × Bool
  | cancelled, [] => ([], cancelled)
  | cancelled, provider :: rest =>
      let later := analyzer.outcomes (cancelled || provider.cancels) rest
      (analyzer.outcome cancelled provider :: later.1, later.2)

end Analyzer

def Outcome.file? : Outcome → Option FileReport
  | .analysed file => some file
  | _ => none

def Outcome.failure? : Outcome → Option Failure
  | .failed failure => some failure
  | _ => none

def Outcome.skipped? : Outcome → Option String
  | .skipped path => some path
  | _ => none

/-- The report of a list of outcomes. It says cancelled exactly when a unit was skipped. -/
def Report.ofOutcomes (outcomes : List Outcome) : Report :=
  let skipped := outcomes.filterMap Outcome.skipped?
  { files := outcomes.filterMap Outcome.file?
    failures := outcomes.filterMap Outcome.failure?
    skipped
    status := if skipped.isEmpty then .completed else .cancelled }

def Analyzer.batch (analyzer : Analyzer) (cancelled : Bool) (providers : List Provider) : Report × Bool :=
  let run := analyzer.outcomes cancelled providers
  (Report.ofOutcomes run.1, run.2)

end MockAudit
