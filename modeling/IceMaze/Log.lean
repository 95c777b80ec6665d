/-!
Lines of the log.
-/

namespace IceMaze

inductive Severity where
  | debug | info | warn
  deriving DecidableEq

def Severity.name : Severity → String
  | .debug => "DEBUG"
  | .info => "INFO"
  | .warn => "WARN"

structure LogLine where
  severity : Severity
  text : String
  deriving DecidableEq

end IceMaze
