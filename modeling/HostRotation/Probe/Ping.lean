import HostRotation.Probe.Check
import HostRotation.Text.Blank
import HostRotation.Text.Numeral
import HostRotation.Text.Utf8
import HostRotation.Timespan

namespace HostRotation

inductive Execution where
  | notStarted (reason : String)
  /-- The program ended, by itself with an exit code or by a signal without one. -/
  | ended (exitCode : Option Nat) (output error : ByteArray)
  /-- The program was started, but its end could not be waited for. -/
  | lost (reason : String)
  | killed

namespace PingProbe

def defaultProgram : String := "ping"

/-- The whole seconds that the program waits for an answer, rounded up, at least one. -/
def waitSeconds (limit : Timespan) : Nat :=
  max 1 ((limit.millis + 999) / 1000)

def arguments (host : String) (limit : Timespan) : List String :=
  ["-n", "-c", "1", "-W", Text.numeral (waitSeconds limit), host]

def runLimit (limit : Timespan) : Timespan :=
  limit.twice

def entry (level : Log.Level) (host message : String) : Log.Entry :=
  { level, source := .pingProbe, message := "Edge node '" ++ host ++ "' check " ++ message }

def written (bytes : ByteArray) : String :=
  Text.trim (Text.Utf8.decode bytes)

def writings (output error : ByteArray) : String :=
  ". Error: " ++ written error ++ ". Output: " ++ written output

def judge (program host : String) (limit : Timespan) : Execution → Check
  | .notStarted reason =>
    { liveness := .dead
      entries := [entry .warn host ("could not start '" ++ program ++ "': " ++ reason)] }
  | .ended (some 0) output error =>
    { liveness := .alive
      entries := [entry .debug host ("passed" ++ writings output error)] }
  | .ended code output error =>
    { liveness := .dead
      entries := [entry .warn host ("failed with exit code "
        ++ (code.map Text.numeral).getD "none (killed by signal)" ++ writings output error)] }
  | .lost reason =>
    { liveness := .dead
      entries := [entry .warn host ("failed while waiting for ping: " ++ reason)] }
  | .killed =>
    { liveness := .dead
      entries := [entry .warn host ("process killed after "
        ++ Text.numeral (runLimit limit).millis ++ "ms")] }

end PingProbe
end HostRotation
