import MockAudit.Rule.Basic

namespace MockAudit

structure Location where
  file : String
  line : UInt64
  column : UInt64
  offset : UInt64
  endOffset : UInt64
deriving DecidableEq

namespace Location

def length (location : Location) : UInt64 := location.endOffset - location.offset

def text (location : Location) : String :=
  location.file ++ ":" ++ location.line.toNat.repr ++ ":" ++ location.column.toNat.repr

end Location

structure Diagnostic where
  code : String
  rule : String
  severity : Severity
  location : Location
  message : String
  suggestion : Option String
  kind : String
deriving DecidableEq

namespace Diagnostic

def mockSemantics : String := "mock-semantics"

def plainColour : String := "\x1b[0m"

def severityColour : Severity → String
  | .error => "\x1b[31m"
  | .warning => "\x1b[33m"

def line (d : Diagnostic) : String :=
  d.location.text ++ ": " ++ d.severity.word ++ " [" ++ d.code ++ "] " ++ d.message

def paragraph (d : Diagnostic) (coloured : Bool) : String :=
  let severity :=
    if coloured then severityColour d.severity ++ d.severity.word ++ plainColour else d.severity.word
  let help := match d.suggestion with
    | some suggestion => "  = help: " ++ suggestion ++ "\n"
    | none => ""
  d.code ++ " " ++ d.rule ++ " at " ++ d.location.text ++ "\n"
    ++ "  " ++ severity ++ ": " ++ d.message ++ "\n" ++ help

def headline (d : Diagnostic) : String := "[" ++ d.code ++ "] " ++ d.message

end Diagnostic
end MockAudit
