import MockAudit.Rule.Declarations
import MockAudit.Rule.Instances
import MockAudit.Rule.Reentrancy

namespace MockAudit.Rule

def catalogue : List Rule :=
  [missingMarker .warning, danglingMarker .error, privateMock .error, missingAccessor .warning,
    discardedInstance .warning, accessorOnClass .warning, selfInvocation .error]

def withCode? (code : String) (severity : Severity) : Option Rule :=
  [missingMarker severity, danglingMarker severity, privateMock severity, missingAccessor severity,
    discardedInstance severity, accessorOnClass severity, selfInvocation severity].find? (·.code == code)

inductive Preset where
  | recommended
  | errorsOnly
deriving DecidableEq

namespace Preset

def ofName? (name : String) : Option Preset :=
  if name = "recommended" then some .recommended
  else if name = "errors-only" then some .errorsOnly
  else none

def rules : Preset → List Rule
  | .recommended => catalogue
  | .errorsOnly => [danglingMarker .error, privateMock .error, selfInvocation .error]

end Preset
end MockAudit.Rule
