import HostRotation.Snapshot.Basic

namespace HostRotation

/-- The counts of one host, which wrap at 64 bits. The latency is the sum over its checks, in
microseconds. -/
structure HostTally where
  selected : UInt64 := 0
  successes : UInt64 := 0
  failures : UInt64 := 0
  latency : UInt64 := 0
  deriving DecidableEq, Repr

namespace HostTally

def addSelection (t : HostTally) : HostTally :=
  { t with selected := t.selected + 1 }

def addProbe (t : HostTally) (alive : Bool) (latency : UInt64) : HostTally :=
  { t with
    successes := if alive then t.successes + 1 else t.successes
    failures := if alive then t.failures else t.failures + 1
    latency := t.latency + latency }

/-- The mean latency, rounded down; zero for a host that was not checked. -/
def meanLatency (t : HostTally) : UInt64 :=
  if t.successes + t.failures = 0 then 0 else t.latency / (t.successes + t.failures)

def metrics (host : String) (t : HostTally) : HostMetrics :=
  { host, selected := t.selected, successes := t.successes, failures := t.failures
    meanLatency := t.meanLatency }

end HostTally

/-- The counts of all selections, which wrap at 64 bits. A host has an entry from the first time
that it is selected or checked. -/
structure Tally where
  selections : UInt64 := 0
  failed : UInt64 := 0
  probes : UInt64 := 0
  hosts : Table HostTally := ∅
  deriving DecidableEq

namespace Tally

def host (t : Tally) (host : String) : HostTally :=
  t.hosts[host]?.getD {}

/-- Changes the counts of a host, which has an entry from then on. -/
def updateHost (t : Tally) (host : String) (f : HostTally → HostTally) : Tally :=
  { t with hosts := t.hosts.insert host (f (t.host host)) }

def addSelection (t : Tally) (host : String) : Tally :=
  { t.updateHost host HostTally.addSelection with selections := t.selections + 1 }

def addProbe (t : Tally) (host : String) (alive : Bool) (latency : UInt64) : Tally :=
  { t.updateHost host (·.addProbe alive latency) with probes := t.probes + 1 }

def addFailure (t : Tally) : Tally :=
  { t with failed := t.failed + 1 }

def snapshot (t : Tally) (uptime : UInt64) : Snapshot :=
  { selections := t.selections, failed := t.failed, probes := t.probes, uptime
    hosts := t.hosts.map HostTally.metrics }

theorem getElem?_hosts_updateHost (t : Tally) (h k : String) (f : HostTally → HostTally) :
    (t.updateHost h f).hosts[k]? = if h = k then some (f (t.host h)) else t.hosts[k]? := by
  simp [updateHost, Std.ExtTreeMap.getElem?_insert]

theorem getElem?_hosts_snapshot (t : Tally) (uptime : UInt64) (k : String) :
    (t.snapshot uptime).hosts[k]? = t.hosts[k]?.map (HostTally.metrics k) := by
  simp [snapshot, Std.ExtTreeMap.getElem?_map]

end Tally
end HostRotation
