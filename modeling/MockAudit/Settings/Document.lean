import MockAudit.Settings.Codec
import MockAudit.Toml.Reader

namespace MockAudit

def Settings.ofText? (text : String) : Option Settings :=
  (Toml.read? text).bind fun json => (Settings.decode .toml json).toOption

end MockAudit
