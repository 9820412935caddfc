import HostRotation.Command.Usage
import HostRotation.Failure
import HostRotation.Log
import HostRotation.Snapshot.Json

namespace HostRotation.Command

inductive Ending where
  | done
  | misused (e : UsageError)
  | failed (f : Failure)
  deriving DecidableEq, Repr

structure Output where
  lines : List String := []
  snapshot : Option Snapshot := none
  entries : List Log.Entry := []
  ending : Ending := .done
  deriving DecidableEq

namespace Ending

def exitCode : Ending → UInt8
  | .done => 0
  | .misused _ => 1
  | .failed f => f.exitCode

/-- What is written about the end, after the log. -/
def report : Ending → String
  | .done => ""
  | .misused e => e.report
  | .failed f => "Error: " ++ f.report ++ "\n"

end Ending

namespace Output

def refused (text : String) : Output :=
  { ending := .failed (.text text) }

def line (s : String) : String :=
  s ++ "\n"

def snapshotText (s : Snapshot) : String :=
  line s.toJson.pretty

def stdout (o : Output) : String :=
  String.join (o.lines.map line) ++ (o.snapshot.map snapshotText).getD ""

def stderr (o : Output) (filter : Log.Filter) : String :=
  Log.lines filter o.entries ++ o.ending.report

def exitCode (o : Output) : UInt8 :=
  o.ending.exitCode

end Output
end HostRotation.Command
