import MockAudit.Idiom.Site

namespace MockAudit

inductive Severity where
  | warning
  | error
deriving DecidableEq

def Severity.word : Severity → String
  | .warning => "warning"
  | .error => "error"

structure Finding where
  anchor : NodeId
  severity : Severity
  message : String
  suggestion : Option String
deriving DecidableEq

structure Rule where
  code : String
  name : String
  description : String
  severity : Severity
  triggers : List Trigger
  findings : Site → List Finding

end MockAudit
