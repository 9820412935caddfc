import HostRotation.Json.Value
import HostRotation.Snapshot.Basic

namespace HostRotation

open Json (Tree Value)

namespace HostMetrics

def fieldNames : List String :=
  ["host", "selected_count", "probe_success_count", "probe_failure_count", "avg_probe_latency_us"]

end HostMetrics

namespace Snapshot

def fieldNames : List String :=
  ["total_selections", "failed_selections", "total_probes", "uptime_ms", "hosts"]

end Snapshot

def Json.Value.ofUInt64 (n : UInt64) : Value :=
  .number (.integer n.toNat)

def Json.Tree.uint64? : Tree → Option UInt64
  | .number l => Json.Number.unsigned? l
  | _ => none

namespace HostMetrics

def toJson (m : HostMetrics) : Value :=
  .object (fieldNames.zip
    [.string m.host, .ofUInt64 m.selected, .ofUInt64 m.successes, .ofUInt64 m.failures,
      .ofUInt64 m.meanLatency])

def ofTree? (t : Tree) : Option HostMetrics :=
  match t.fields? fieldNames with
  | some [host, selected, successes, failures, meanLatency] => do
    let host ← host.text?
    let selected ← selected.uint64?
    let successes ← successes.uint64?
    let failures ← failures.uint64?
    let meanLatency ← meanLatency.uint64?
    return { host, selected, successes, failures, meanLatency }
  | _ => none

end HostMetrics

namespace Snapshot

def toJson (s : Snapshot) : Value :=
  .object (fieldNames.zip
    [.ofUInt64 s.selections, .ofUInt64 s.failed, .ofUInt64 s.probes, .ofUInt64 s.uptime,
      .object (s.hosts.toList.map fun (key, m) => (key, m.toJson))])

/-- Reads the hosts of a snapshot; of a repeated key the last one counts. -/
def hostsOfTree? (t : Tree) : Option (Table HostMetrics) := do
  let members ← t.members?
  let hosts ← members.mapM fun (key, t) => (HostMetrics.ofTree? t).map (key, ·)
  return Std.ExtTreeMap.ofList hosts compare

def ofTree? (t : Tree) : Option Snapshot :=
  match t.fields? fieldNames with
  | some [selections, failed, probes, uptime, hosts] => do
    let selections ← selections.uint64?
    let failed ← failed.uint64?
    let probes ← probes.uint64?
    let uptime ← uptime.uint64?
    let hosts ← hostsOfTree? hosts
    return { selections, failed, probes, uptime, hosts }
  | _ => none

/-- The snapshot that a JSON text is: an object with the fields as members, in any order and others
among them, or an array of the fields. Each field must be there once. -/
def ofJson? (s : String) : Option Snapshot :=
  (Tree.parse? s).bind ofTree?

end Snapshot
end HostRotation
