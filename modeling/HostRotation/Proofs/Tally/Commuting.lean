import HostRotation.Proofs.Tally.Writes

namespace HostRotation
namespace Tally

theorem ext_counts {t t' : Tally} (hs : t.selections = t'.selections) (hf : t.failed = t'.failed)
    (hp : t.probes = t'.probes) (hh : ∀ h : String, t.hosts[h]? = t'.hosts[h]?) : t = t' := by
  obtain ⟨selections, failed, probes, hosts⟩ := t
  obtain rfl : hosts = t'.hosts := Std.ExtTreeMap.ext_getElem? fun h => hh h
  cases hs
  cases hf
  cases hp
  rfl

def Write.onHost : Write → HostTally → HostTally
  | .selections | .failed | .probes | .enter _ => id
  | .selected _ => HostTally.addSelection
  | .success _ => fun x => { x with successes := x.successes + 1 }
  | .failure _ => fun x => { x with failures := x.failures + 1 }
  | .latency _ l => fun x => { x with latency := x.latency + l }

theorem Write.onHost_comm (w w' : Write) (x : HostTally) :
    w.onHost (w'.onHost x) = w'.onHost (w.onHost x) := by
  cases w <;> cases w'
  case latency.latency _ l _ l' =>
    have hl : x.latency + l' + l = x.latency + l + l' := by ac_rfl
    simp only [onHost, hl]
  all_goals rfl

theorem write_of_host? {w : Write} {h : String} (hw : w.host? = some h) (t : Tally) :
    t.write w = t.updateHost h w.onHost := by
  cases w
  case selections | failed | probes => cases hw
  all_goals
    cases hw
    rfl

theorem getElem?_hosts_write (t : Tally) (w : Write) (h : String) :
    (t.write w).hosts[h]? =
      if w.host? = some h then some (w.onHost (t.host h)) else t.hosts[h]? := by
  cases w
  case selections | failed | probes => simp [write, Write.host?, addFailure]
  all_goals
    simp only [write, Write.host?, Write.onHost, getElem?_hosts_updateHost, Option.some.injEq]
    split
    · next he => rw [he]
    · rfl

theorem host_write (t : Tally) (w : Write) (h : String) :
    (t.write w).host h = if w.host? = some h then w.onHost (t.host h) else t.host h := by
  rw [host, getElem?_hosts_write]
  split <;> rfl

theorem write_right_comm (t : Tally) (w w' : Write) :
    (t.write w).write w' = (t.write w').write w := by
  have hcount {v : Write} {count : Tally → UInt64} (hv : v.count? = some count) :
      count ((t.write w).write w') = count ((t.write w').write w) := by
    rw [count_write hv, count_write hv, count_write hv, count_write hv]
    ac_rfl
  apply ext_counts (hcount (v := .selections) rfl) (hcount (v := .failed) rfl)
    (hcount (v := .probes) rfl)
  intro h
  simp only [getElem?_hosts_write, host_write]
  by_cases hw : w.host? = some h
  all_goals by_cases hw' : w'.host? = some h
  all_goals simp [hw, hw', w.onHost_comm w']

theorem foldl_write_perm {ws ws' : List Write} (h : ws.Perm ws') (t : Tally) :
    ws.foldl write t = ws'.foldl write t :=
  h.foldl_eq' (fun w _ w' _ t => t.write_right_comm w w') t

theorem foldl_record_perm {records records' : List Record} (h : records.Perm records')
    (t : Tally) : records.foldl record t = records'.foldl record t := by
  rw [foldl_record, foldl_record]
  exact foldl_write_perm (h.flatMap_right Record.writes) t

theorem foldl_observe_perm {events events' : List Event} (h : events.Perm events') (t : Tally) :
    events.foldl observe t = events'.foldl observe t := by
  rw [foldl_observe, foldl_observe]
  exact foldl_write_perm (h.flatMap_right Event.writes) t

end Tally

def Event.bare : Event → Event
  | .probed host a => .probed host { check := { liveness := a.check.liveness } }
  | e => e

def HostTally.withoutLatency (x : HostTally) : HostTally :=
  { x with latency := 0 }

namespace Tally

def withoutLatency (t : Tally) : Tally :=
  { t with hosts := t.hosts.map fun _ => HostTally.withoutLatency }

theorem host_withoutLatency (t : Tally) (h : String) :
    t.withoutLatency.host h = (t.host h).withoutLatency := by
  simp only [host, withoutLatency, Std.ExtTreeMap.getElem?_map]
  cases t.hosts[h]? <;> rfl

theorem withoutLatency_updateHost (t : Tally) (h : String) {f g : HostTally → HostTally}
    (hfg : ∀ x, (f x).withoutLatency = g x.withoutLatency) :
    (t.updateHost h f).withoutLatency = t.withoutLatency.updateHost h g := by
  refine ext_counts ?_ ?_ ?_ fun k => ?_
  · rfl
  · rfl
  · rfl
  · rw [getElem?_hosts_updateHost, host_withoutLatency, ← hfg]
    simp only [withoutLatency, Std.ExtTreeMap.getElem?_map, getElem?_hosts_updateHost]
    split <;> rfl

theorem withoutLatency_observe (t : Tally) (e : Event) :
    (t.observe e).withoutLatency = t.withoutLatency.observe e.bare := by
  cases e with
  | skipped h => rfl
  | exhausted p e => rfl
  | selected p s =>
    have hs := t.withoutLatency_updateHost s.host (f := HostTally.addSelection)
      (g := HostTally.addSelection) fun _ => rfl
    exact congrArg (fun u => { u with selections := t.selections + 1 }) hs
  | probed h a =>
    have hp := t.withoutLatency_updateHost h (f := (·.addProbe a.check.liveness.isAlive a.latency))
      (g := (·.addProbe a.check.liveness.isAlive 0)) fun _ => rfl
    exact congrArg (fun u => { u with probes := t.probes + 1 }) hp

theorem withoutLatency_foldl_observe (t : Tally) (events : List Event) :
    (events.foldl observe t).withoutLatency =
      (events.map Event.bare).foldl observe t.withoutLatency := by
  rw [List.foldl_map]
  exact (List.foldl_hom withoutLatency fun t e => (t.withoutLatency_observe e).symm).symm

end Tally
end HostRotation
