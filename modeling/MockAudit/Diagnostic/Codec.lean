import MockAudit.Diagnostic.Report
import MockAudit.Json.Decoder
import MockAudit.Unit.Encoding

namespace MockAudit

open Decoder Fields

def Severity.ofWord? (word : String) : Option Severity :=
  if word = "warning" then some .warning else if word = "error" then some .error else none

def Severity.decode (format : Format) : Decoder Severity := alternative format Severity.ofWord?

def Location.toJson (location : Location) : Json :=
  .object
    [("file", .string location.file), ("line", .ofWord location.line),
      ("column", .ofWord location.column), ("offset", .ofWord location.offset),
      ("end_offset", .ofWord location.endOffset)]

def Location.decode : Decoder Location :=
  record .json (Location.mk <$> required "file" string <*> required "line" word64
    <*> required "column" word64 <*> required "offset" word64 <*> required "end_offset" word64)

def suggestionJson (message : String) : Json := .object [("message", .string message)]

def suggestionDecode : Decoder String := record .json (required "message" string)

def Diagnostic.toJson (d : Diagnostic) : Json :=
  .object
    ([("code", .string d.code), ("rule", .string d.rule), ("severity", .string d.severity.word),
        ("location", d.location.toJson), ("message", .string d.message)]
      ++ optionalMember "suggestion" suggestionJson d.suggestion
      ++ [("kind", .string d.kind)])

def Diagnostic.decode : Decoder Diagnostic :=
  record .json (Diagnostic.mk <$> required "code" string <*> required "rule" string
    <*> required "severity" (Severity.decode .json) <*> required "location" Location.decode
    <*> required "message" string <*> optional "suggestion" suggestionDecode
    <*> required "kind" string)

def FileReport.toJson (file : FileReport) : Json :=
  .object [("path", .string file.path), ("diagnostics", .ofList Diagnostic.toJson file.diagnostics)]

def FileReport.decode : Decoder FileReport :=
  record .json (FileReport.mk <$> required "path" string
    <*> required "diagnostics" (list Diagnostic.decode))

def Failure.toJson (failure : Failure) : Json :=
  .object [("path", .string failure.path), ("message", .string failure.message)]

def Failure.decode : Decoder Failure :=
  record .json (Failure.mk <$> required "path" string <*> required "message" string)

def Status.ofWord? (word : String) : Option Status :=
  if word = "completed" then some .completed
  else if word = "cancelled" then some .cancelled
  else none

def Report.toJson (report : Report) : Json :=
  .object
    [("files", .ofList FileReport.toJson report.files),
      ("failures", .ofList Failure.toJson report.failures),
      ("skipped", .ofList .string report.skipped), ("status", .string report.status.word)]

def Report.decode : Decoder Report :=
  record .json (Report.mk <$> required "files" (list FileReport.decode)
    <*> required "failures" (list Failure.decode) <*> required "skipped" (list string)
    <*> required "status" (alternative .json Status.ofWord?))

end MockAudit
