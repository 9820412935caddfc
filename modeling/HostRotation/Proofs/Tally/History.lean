import Mathlib.Algebra.Order.BigOperators.Group.List
import HostRotation.Proofs.Tally.Bounds

namespace HostRotation

open Tally (Write)

namespace Record

def host? : Record → Option String
  | .selection h | .probe h _ _ => some h
  | .failure => none

def selected? : Record → Option String
  | .selection h => some h
  | _ => none

def checked? : Record → Option (String × Bool)
  | .probe h alive _ => some (h, alive)
  | _ => none

def latency? (host : String) : Record → Option Nat
  | .probe h _ l => if h = host then some l.toNat else none
  | _ => none

variable {r : Record} {h : String}

theorem selections_mem_writes : .selections ∈ r.writes ↔ r.selected?.isSome := by
  rcases r with _ | ⟨_, _ | _, _⟩ | _ <;> simp [writes, selected?]

theorem failed_mem_writes : .failed ∈ r.writes ↔ r = .failure := by
  rcases r with _ | ⟨_, _ | _, _⟩ | _ <;> simp [writes]

theorem probes_mem_writes : .probes ∈ r.writes ↔ r.checked?.isSome := by
  rcases r with _ | ⟨_, _ | _, _⟩ | _ <;> simp [writes, checked?]

theorem selected_mem_writes : .selected h ∈ r.writes ↔ r.selected? = some h := by
  rcases r with _ | ⟨_, _ | _, _⟩ | _ <;> simp [writes, selected?, eq_comm]

theorem success_mem_writes : .success h ∈ r.writes ↔ r.checked? = some (h, true) := by
  rcases r with _ | ⟨_, _ | _, _⟩ | _ <;> simp [writes, checked?, eq_comm]

theorem failure_mem_writes : .failure h ∈ r.writes ↔ r.checked? = some (h, false) := by
  rcases r with _ | ⟨_, _ | _, _⟩ | _ <;> simp [writes, checked?, eq_comm]

theorem exists_mem_writes : (∃ w ∈ r.writes, w.host? = some h) ↔ r.host? = some h := by
  rcases r with _ | ⟨_, _ | _, _⟩ | _ <;> simp [writes, host?, Write.host?]

theorem host?_of_selected? (hr : r.selected? = some h) : r.host? = some h := by
  cases r with
  | selection k => exact hr
  | probe | failure => cases hr

theorem host?_of_checked? (hr : r.checked?.map Prod.fst = some h) : r.host? = some h := by
  cases r with
  | probe k alive l => exact hr
  | selection | failure => cases hr

theorem isSome_latency?_iff : (r.latency? h).isSome ↔ r.checked?.map Prod.fst = some h := by
  cases r with
  | probe k alive l => by_cases hk : k = h <;> simp [latency?, checked?, hk]
  | selection | failure => simp [latency?, checked?]

theorem length_latency? : (r.latency? h).toList.length =
    (if r.checked? = some (h, true) then 1 else 0) +
      if r.checked? = some (h, false) then 1 else 0 := by
  rcases r with _ | ⟨k, _ | _, _⟩ | _
  case probe.false | probe.true => by_cases hk : k = h <;> simp [latency?, checked?, hk]
  all_goals simp [latency?, checked?]

end Record

def latencies (host : String) (records : List Record) : List Nat :=
  records.filterMap (Record.latency? host)

/-- What calls leave of a host that one of them names. -/
structure HostMetrics.Recounts (m : HostMetrics) (h : String) (records : List Record) : Prop where
  host : m.host = h
  selected : m.selected.toNat = records.countP fun r => r.selected? = some h
  successes : m.successes.toNat = records.countP fun r => r.checked? = some (h, true)
  failures : m.failures.toNat = records.countP fun r => r.checked? = some (h, false)
  checks : m.checks.toNat = (latencies h records).length
  unchecked : latencies h records = [] → m.meanLatency = 0
  meanLatency : latencies h records ≠ [] → m.meanLatency.toNat =
    (latencies h records).sum % 2 ^ 64 / (latencies h records).length
  least : (latencies h records).sum < 2 ^ 64 → ∀ l ∈ (latencies h records).min?,
    l ≤ m.meanLatency.toNat
  greatest : (latencies h records).sum < 2 ^ 64 → ∀ l ∈ (latencies h records).max?,
    m.meanLatency.toNat ≤ l

structure Snapshot.Recounts (x : Snapshot) (records : List Record) : Prop where
  selections : x.selections.toNat = records.countP fun r => r.selected?.isSome
  failed : x.failed.toNat = records.count .failure
  probes : x.probes.toNat = records.countP fun r => r.checked?.isSome
  names : ∀ h, h ∈ x.hosts ↔ ∃ r ∈ records, r.host? = some h
  hosts : ∀ (h : String) (m : HostMetrics), x.hosts[h]? = some m → m.Recounts h records
  selectedSum : x.selectedSum = x.selections.toNat
  checksSum : x.checksSum = x.probes.toNat

namespace Tally

variable {records : List Record}

theorem count_writes (records : List Record) (w : Write) :
    (records.flatMap Record.writes).count w = records.countP fun r => w ∈ r.writes :=
  count_flatMap_of_nodup Record.nodup_writes records w

theorem counted_foldl_record (records : List Record) :
    (records.foldl record {}).Counted (records.flatMap Record.writes) := by
  rw [foldl_record]
  exact counted_foldl_write _

theorem toNat_of_count (hlt : records.length < 2 ^ 64) {w : Write} {n : UInt64}
    (hn : n = .ofNat ((records.flatMap Record.writes).count w)) {p : Record → Bool}
    (hp : ∀ r : Record, w ∈ r.writes ↔ p r) : n.toNat = records.countP p := by
  have hcount : (records.flatMap Record.writes).count w = records.countP p := by
    rw [count_writes]
    exact List.countP_congr fun r _ => by rw [decide_eq_true_iff, hp]
  rw [hn, hcount, UInt64.toNat_ofNat_of_lt' (List.countP_le_length.trans_lt hlt)]

theorem latencies_cons (h : String) (r : Record) (records : List Record) :
    latencies h (r :: records) = (r.latency? h).toList ++ latencies h records := by
  rw [latencies, List.filterMap_cons]
  cases r.latency? h <;> rfl

theorem length_latencies (h : String) (records : List Record) :
    (latencies h records).length = (records.countP fun r => r.checked? = some (h, true)) +
      records.countP fun r => r.checked? = some (h, false) := by
  induction records with
  | nil => rfl
  | cons r records ih =>
    rw [latencies_cons, List.length_append, ih, Record.length_latency?, List.countP_cons,
      List.countP_cons]
    simp only [decide_eq_true_eq]
    omega

theorem toNat_latency_record (t : Tally) (r : Record) (h : String) :
    ((t.record r).host h).latency.toNat =
      ((t.host h).latency.toNat + (r.latency? h).toList.sum) % 2 ^ 64 := by
  have hlt := Nat.mod_eq_of_lt (t.host h).latency.toNat_lt
  cases r with
  | selection k =>
    have hhost : ((t.record (.selection k)).host h).latency = (t.host h).latency := by
      change ((t.updateHost k HostTally.addSelection).host h).latency = _
      rw [host_updateHost]
      split
      · next hk => rw [hk, HostTally.addSelection]
      · rfl
    rw [hhost]
    exact hlt.symm
  | probe k alive l =>
    change ((t.updateHost k (·.addProbe alive l)).host h).latency.toNat = _
    rw [host_updateHost]
    by_cases hk : k = h
    · subst k
      simp [Record.latency?, HostTally.addProbe, UInt64.toNat_add]
    · simp [Record.latency?, hk]
  | failure => exact hlt.symm

/-- The latency sum of a host wraps like a count. -/
theorem toNat_latency_foldl_record (t : Tally) (records : List Record) (h : String) :
    ((records.foldl record t).host h).latency.toNat =
      ((t.host h).latency.toNat + (latencies h records).sum) % 2 ^ 64 := by
  induction records generalizing t with
  | nil => exact (Nat.mod_eq_of_lt (t.host h).latency.toNat_lt).symm
  | cons r records ih =>
    rw [List.foldl_cons, ih, toNat_latency_record, latencies_cons, List.sum_append, ← Nat.add_assoc,
      Nat.mod_add_mod]

theorem isSome_hosts_foldl_record (records : List Record) (h : String) :
    (records.foldl record {}).hosts[h]?.isSome ↔ ∃ r ∈ records, r.host? = some h := by
  rw [(counted_foldl_record records).entry h]
  constructor
  · rintro ⟨w, hw, hh⟩
    obtain ⟨r, hr, hwr⟩ := List.mem_flatMap.1 hw
    exact ⟨r, hr, Record.exists_mem_writes.1 ⟨w, hwr, hh⟩⟩
  · rintro ⟨r, hr, hh⟩
    obtain ⟨w, hw, hwh⟩ := Record.exists_mem_writes.2 hh
    exact ⟨w, List.mem_flatMap_of_mem hr hw, hwh⟩

end Tally

theorem min_le_mean {l : List Nat} {x : Nat} (hx : x ∈ l.min?) : x ≤ l.sum / l.length := by
  obtain ⟨hmem, hle⟩ := List.min?_eq_some_iff.1 hx
  rw [Nat.le_div_iff_mul_le (List.length_pos_of_mem hmem), Nat.mul_comm]
  exact List.card_nsmul_le_sum l x hle

theorem mean_le_max {l : List Nat} {x : Nat} (hx : x ∈ l.max?) : l.sum / l.length ≤ x := by
  obtain ⟨-, hle⟩ := List.max?_eq_some_iff.1 hx
  exact Nat.div_le_of_le_mul (List.sum_le_card_nsmul l x hle)

theorem sum_hosts_eq {hosts : Table HostMetrics} {f : HostMetrics → Nat} {l : List String}
    (hf : ∀ (h : String) (m : HostMetrics), hosts[h]? = some m → f m = l.count h)
    (hl : ∀ h ∈ l, h ∈ hosts) : (hosts.toList.map fun e => f e.2).sum = l.length := by
  have hall : l.countP (· ∈ hosts) = l.length := by
    rw [List.countP_eq_length]
    exact fun h hh => decide_eq_true (hl h hh)
  calc (hosts.toList.map fun e => f e.2).sum
    _ = (hosts.toList.map fun e => l.count e.1).sum := by
      congr 1
      apply List.map_congr_left
      intro e he
      exact hf e.1 e.2 (Std.ExtTreeMap.mem_toList_iff_getElem?_eq_some.1 he)
    _ = l.countP (· ∈ hosts) := Table.sum_count_toList hosts l
    _ = l.length := hall

namespace Tally

variable {records : List Record} {h : String}

theorem toNat_selected_foldl_record (hlt : records.length < 2 ^ 64) (h : String) :
    ((records.foldl record {}).host h).selected.toNat =
      records.countP fun r => r.selected? = some h :=
  toNat_of_count hlt ((counted_foldl_record records).selected h) fun r => by
    rw [Record.selected_mem_writes, decide_eq_true_iff]

theorem toNat_successes_foldl_record (hlt : records.length < 2 ^ 64) (h : String) :
    ((records.foldl record {}).host h).successes.toNat =
      records.countP fun r => r.checked? = some (h, true) :=
  toNat_of_count hlt ((counted_foldl_record records).successes h) fun r => by
    rw [Record.success_mem_writes, decide_eq_true_iff]

theorem toNat_failures_foldl_record (hlt : records.length < 2 ^ 64) (h : String) :
    ((records.foldl record {}).host h).failures.toNat =
      records.countP fun r => r.checked? = some (h, false) :=
  toNat_of_count hlt ((counted_foldl_record records).failures h) fun r => by
    rw [Record.failure_mem_writes, decide_eq_true_iff]

theorem toNat_checks_foldl_record (hlt : records.length < 2 ^ 64) (h : String) :
    (((records.foldl record {}).host h).successes +
      ((records.foldl record {}).host h).failures).toNat = (latencies h records).length := by
  have hle : (latencies h records).length ≤ records.length := List.length_filterMap_le _ _
  rw [UInt64.toNat_add, toNat_successes_foldl_record hlt, toNat_failures_foldl_record hlt,
    ← length_latencies, Nat.mod_eq_of_lt (hle.trans_lt hlt)]

theorem meanLatency_foldl_record (hlt : records.length < 2 ^ 64) (h : String) :
    (latencies h records = [] → ((records.foldl record {}).host h).meanLatency = 0) ∧
    (latencies h records ≠ [] → ((records.foldl record {}).host h).meanLatency.toNat =
      (latencies h records).sum % 2 ^ 64 / (latencies h records).length) := by
  have hchecks := toNat_checks_foldl_record hlt h
  have hzero : ((records.foldl record {}).host h).successes +
      ((records.foldl record {}).host h).failures = 0 ↔ latencies h records = [] := by
    rw [← UInt64.toNat_inj, hchecks, UInt64.toNat_zero, List.length_eq_zero_iff]
  refine ⟨fun hnone => ?_, fun hsome => ?_⟩
  · rw [HostTally.meanLatency, if_pos (hzero.2 hnone)]
  · rw [HostTally.meanLatency, if_neg fun h0 => hsome (hzero.1 h0), UInt64.toNat_div, hchecks,
      toNat_latency_foldl_record]
    simp [host]

theorem recounts_metrics (hlt : records.length < 2 ^ 64) (h : String) :
    (((records.foldl record {}).host h).metrics h).Recounts h records := by
  obtain ⟨hnone, hsome⟩ := meanLatency_foldl_record hlt h
  have hmean {l : Nat} (hl : l ∈ latencies h records)
      (hsum : (latencies h records).sum < 2 ^ 64) :
      ((records.foldl record {}).host h).meanLatency.toNat =
        (latencies h records).sum / (latencies h records).length := by
    rw [hsome (List.ne_nil_of_mem hl), Nat.mod_eq_of_lt hsum]
  exact {
    host := rfl
    selected := toNat_selected_foldl_record hlt h
    successes := toNat_successes_foldl_record hlt h
    failures := toNat_failures_foldl_record hlt h
    checks := toNat_checks_foldl_record hlt h
    unchecked := hnone
    meanLatency := hsome
    least := fun hsum l hl => by
      rw [HostTally.metrics, hmean (List.min?_mem hl) hsum]
      exact min_le_mean hl
    greatest := fun hsum l hl => by
      rw [HostTally.metrics, hmean (List.max?_mem hl) hsum]
      exact mean_le_max hl }

theorem getElem?_hosts_recounts (hlt : records.length < 2 ^ 64) {uptime : UInt64}
    {m : HostMetrics} (hm : ((records.foldl record {}).snapshot uptime).hosts[h]? = some m) :
    m.Recounts h records := by
  rw [getElem?_hosts_snapshot] at hm
  obtain ⟨t, ht, rfl⟩ := Option.map_eq_some_iff.1 hm
  have hrecounts := recounts_metrics hlt h
  rwa [host, ht] at hrecounts

theorem mem_hosts_snapshot_iff (records : List Record) (uptime : UInt64) (h : String) :
    h ∈ ((records.foldl record {}).snapshot uptime).hosts ↔
      ∃ r ∈ records, r.host? = some h := by
  rw [← Std.ExtTreeMap.isSome_getElem?_iff_mem, getElem?_hosts_snapshot, Option.isSome_map,
    isSome_hosts_foldl_record]

theorem selectedSum_foldl_record (hlt : records.length < 2 ^ 64) (uptime : UInt64) :
    ((records.foldl record {}).snapshot uptime).selectedSum =
      records.countP fun r => r.selected?.isSome := by
  rw [← List.length_filterMap_eq_countP]
  refine sum_hosts_eq (f := fun m => m.selected.toNat) (fun k m hm => ?_) fun k hk => ?_
  · rw [List.count_filterMap, (getElem?_hosts_recounts hlt hm).selected]
    simp only [beq_eq_decide]
  · obtain ⟨r, hr, hs⟩ := List.mem_filterMap.1 hk
    exact (mem_hosts_snapshot_iff records uptime k).2 ⟨r, hr, Record.host?_of_selected? hs⟩

theorem checksSum_foldl_record (hlt : records.length < 2 ^ 64) (uptime : UInt64) :
    ((records.foldl record {}).snapshot uptime).checksSum =
      records.countP fun r => r.checked?.isSome := by
  have hlength : (records.filterMap fun r => r.checked?.map Prod.fst).length =
      records.countP fun r => r.checked?.isSome := by
    simp [List.length_filterMap_eq_countP]
  rw [← hlength]
  refine sum_hosts_eq (f := fun m => m.successes.toNat + m.failures.toNat) (fun k m hm => ?_)
    fun k hk => ?_
  · have hm := getElem?_hosts_recounts hlt hm
    rw [hm.successes, hm.failures, ← length_latencies, latencies, List.count_filterMap,
      List.length_filterMap_eq_countP]
    exact List.countP_congr fun r _ => by rw [beq_iff_eq, Record.isSome_latency?_iff]
  · obtain ⟨r, hr, hs⟩ := List.mem_filterMap.1 hk
    exact (mem_hosts_snapshot_iff records uptime k).2 ⟨r, hr, Record.host?_of_checked? hs⟩

/-- The snapshot after calls, too few for a count to start over, recounts them. -/
theorem snapshot_recounts (hlt : records.length < 2 ^ 64) (uptime : UInt64) :
    ((records.foldl record {}).snapshot uptime).Recounts records := by
  have hc := counted_foldl_record records
  have hselections : (records.foldl record {}).selections.toNat =
      records.countP fun r => r.selected?.isSome :=
    toNat_of_count hlt hc.selections fun r => Record.selections_mem_writes
  have hfailed : (records.foldl record {}).failed.toNat = records.count .failure :=
    toNat_of_count hlt hc.failed fun r => by rw [Record.failed_mem_writes, beq_iff_eq]
  have hprobes : (records.foldl record {}).probes.toNat =
      records.countP fun r => r.checked?.isSome :=
    toNat_of_count hlt hc.probes fun r => Record.probes_mem_writes
  exact {
    selections := hselections
    failed := hfailed
    probes := hprobes
    names := mem_hosts_snapshot_iff records uptime
    hosts := fun h m hm => getElem?_hosts_recounts hlt hm
    selectedSum := (selectedSum_foldl_record hlt uptime).trans hselections.symm
    checksSum := (checksSum_foldl_record hlt uptime).trans hprobes.symm }

/-- Two checks of a host whose latencies wrap, and a selection of another. -/
def wrapping : List Record :=
  [.probe "a" true (0 - 1), .selection "b", .probe "a" false 4]

theorem snapshot_recounts_wrapping :
    wrapping.length < 2 ^ 64 ∧ ∃ m, ((wrapping.foldl record {}).snapshot 7).hosts["a"]? = some m ∧
      m.meanLatency.toNat = (2 ^ 64 + 3) % 2 ^ 64 / 2 ∧
      ((wrapping.foldl record {}).snapshot 7).checksSum = 2 := by
  have hlt : wrapping.length < 2 ^ 64 := by decide
  have hrecounts := snapshot_recounts hlt 7
  have ha : "a" ∈ ((wrapping.foldl record {}).snapshot 7).hosts :=
    (hrecounts.names "a").2 ⟨_, List.mem_cons_self, rfl⟩
  obtain ⟨m, hm⟩ := Option.isSome_iff_exists.1 (Std.ExtTreeMap.isSome_getElem?_iff_mem.2 ha)
  refine ⟨hlt, m, hm, (hrecounts.hosts "a" m hm).meanLatency (by decide), ?_⟩
  rw [hrecounts.checksSum, hrecounts.probes]
  rfl

end Tally
end HostRotation
