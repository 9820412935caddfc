import HostRotation.Probe.Check
import HostRotation.Text.Numeral
import HostRotation.Timespan

namespace HostRotation

inductive Connection where
  | accepted
  | failed (reason : String)
  | unanswered
  deriving DecidableEq, Repr

namespace SocketProbe

def entry (level : Log.Level) (host message : String) : Log.Entry :=
  { level, source := .socketProbe, message := "Edge node '" ++ host ++ "' check " ++ message }

def judge (host : String) (port : UInt16) (limit : Timespan) : Connection → Check
  | .accepted =>
    { liveness := .alive
      entries := [entry .debug host ("passed on port " ++ Text.numeral port.toNat ++ " for timeout "
        ++ Text.numeral limit.millis ++ "ms")] }
  | .failed reason =>
    { liveness := .dead
      entries := [entry .warn host ("failed on port " ++ Text.numeral port.toNat ++ ": "
        ++ reason)] }
  | .unanswered =>
    { liveness := .dead
      entries := [entry .warn host ("timed out after " ++ Text.numeral limit.millis ++ "ms on port "
        ++ Text.numeral port.toNat)] }

end SocketProbe
end HostRotation
