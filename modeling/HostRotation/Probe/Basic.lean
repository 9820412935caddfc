import HostRotation.Config.Basic
import HostRotation.Probe.Ping
import HostRotation.Probe.Socket

namespace HostRotation

inductive Probe where
  | noop
  | socket (port : UInt16)
  | ping (program : String)
  deriving DecidableEq, Repr

/-- What probes meet outside of the program, in a monad of effects. -/
structure Surroundings (m : Type → Type) where
  /-- The microseconds since some time in the past. -/
  clock : m Nat
  connect : String → UInt16 → Timespan → m Connection
  execute : String → List String → Timespan → m Execution

namespace Probe

def ofMethod (method : CheckMethod) (port : UInt16) : Probe :=
  match method with
  | .unchecked => .noop
  | .socket => .socket port
  | .ping => .ping PingProbe.defaultProgram

def ofConfig (c : Config) : Probe :=
  ofMethod c.method c.port

def method : Probe → CheckMethod
  | .noop => .unchecked
  | .socket _ => .socket
  | .ping _ => .ping

/-- Whether a probe is the one that its method has without further settings. -/
def isDefault (p : Probe) : Bool :=
  p = ofMethod p.method Config.defaultPort

/-- Checks a host, for no longer than the limit or, with an external program, twice that. -/
def check {m : Type → Type} [Monad m] (s : Surroundings m) (host : String) (limit : Timespan) :
    Probe → m Check
  | .noop => pure { liveness := .alive }
  | .socket port => do
    return SocketProbe.judge host port limit (← s.connect host port limit)
  | .ping program => do
    let run ← s.execute program (PingProbe.arguments host limit) (PingProbe.runLimit limit)
    return PingProbe.judge program host limit run

def answer {m : Type → Type} [Monad m] (s : Surroundings m) (host : String) (limit : Timespan)
    (p : Probe) : m Answer := do
  let start ← s.clock
  let check ← p.check s host limit
  let finish ← s.clock
  return { check, latency := UInt64.ofNat (finish - start) }

end Probe
end HostRotation
