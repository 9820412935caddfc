import HostRotation.Binary64
import HostRotation.Table

namespace HostRotation

/-- What a snapshot holds of one host. The mean latency is in microseconds. -/
structure HostMetrics where
  host : String
  selected : UInt64 := 0
  successes : UInt64 := 0
  failures : UInt64 := 0
  meanLatency : UInt64 := 0
  deriving DecidableEq, Repr

def HostMetrics.checks (m : HostMetrics) : UInt64 :=
  m.successes + m.failures

/-- The counts of all selections at some time. The uptime is in milliseconds. -/
structure Snapshot where
  selections : UInt64 := 0
  failed : UInt64 := 0
  probes : UInt64 := 0
  uptime : UInt64 := 0
  hosts : Table HostMetrics := ∅
  deriving DecidableEq

namespace Snapshot

def selectedCount (s : Snapshot) (host : String) : UInt64 :=
  (s.hosts[host]?.map HostMetrics.selected).getD 0

/-- The share of the successful selections that fell to a host: the quotient of the two counts, each
of the three numbers rounded. Before the first selection it is zero. -/
def share (s : Snapshot) (host : String) : Binary64 :=
  if s.selections = 0 then .zero
  else
    let selected := (Binary64.ofNat? (s.selectedCount host).toNat).getD .zero
    let total := (Binary64.ofNat? s.selections.toNat).getD .zero
    (selected.div? total).getD .zero

end Snapshot
end HostRotation
