import Mathlib.Algebra.BigOperators.Group.Finset.Basic
import HostRotation.Proofs.Cursors.Consecutive
import HostRotation.Proofs.Residues
import HostRotation.Proofs.Selection.ByHost
import HostRotation.Proofs.Selection.Positions

namespace HostRotation

namespace Call

def selected? : Call → Option Selected
  | .ended (.ok x) => some x
  | _ => none

def positions (calls : List Call) : List Nat :=
  calls.filterMap fun call => call.selected?.map Selected.index

end Call

namespace Request

theorem findsBy_noop {σ : Type} (out : Surroundings (StateM σ)) (limit : Timespan) :
    FindsBy (fun _ => .alive) fun stop => Probe.noop.answer out stop.host limit := by
  intro stop w
  obtain ⟨t, w₁, hstart⟩ := exists_run out.clock w
  obtain ⟨t', w₂, hfinish⟩ := exists_run out.clock w₁
  exact ⟨{ check := { liveness := .alive }, latency := .ofNat (t' - t) }, w₂,
    by simp [Probe.answer, Probe.check, hstart, hfinish], rfl⟩

theorem outcome_noop (c : Config) (profile : String) (cursor : UInt64) :
    (outcome { config := c, profile } (fun _ => .alive) cursor).2 =
      .ended (.ok ⟨(c.stop cursor 0).host, c.position cursor 0⟩) := by
  have hx : excludes { config := c, profile } (c.stop cursor 0).host = false := rfl
  rw [outcome, c.stops_eq_cons, fate_cons_alive _ hx rfl]
  rfl

end Request

namespace Shared

variable {σ : Type} (out : Surroundings (StateM σ))

open SharedCursors

theorem selectTimes_noop (s : Shared) (metered : Bool) (c : Config) (profile : String) (k : Nat)
    (w : σ) :
    ∃ calls after w',
      (s.selectTimes metered (Request.probeBy .noop out) { config := c, profile } k).run w =
        pure ((calls, after), w') ∧
      calls.length = k ∧
      Call.positions calls = (List.range k).map fun j =>
        ((s.cursors.value profile).toNat + j) % 2 ^ 64 % c.hosts.length := by
  let r : Request := { config := c, profile }
  let probe (r : Request) (stop : Stop) : StateM σ Answer :=
    Probe.noop.answer out stop.host r.config.checkTime
  have hp : FindsBy (fun _ => .alive) (probe r) := Request.findsBy_noop out c.checkTime
  obtain ⟨events, w', hrun, -⟩ := selectTimes_eq_outcomes hp s metered k w
  rw [drawMany_eq] at hrun
  refine ⟨_, _, w', hrun, by simp [consecutive], ?_⟩
  have hposition (v : UInt64) : (r.outcome (fun _ => .alive) v).2.selected?.map Selected.index =
      some (v.toNat % c.hosts.length) := by
    rw [Request.outcome_noop]
    simp [Call.selected?, Config.position]
  simp [Call.positions, consecutive, List.filterMap_map, Function.comp_def, hposition, r]

open Residues

theorem count_map_wrapped (start n k i : Nat) :
    ((List.range k).map fun j => (start + j) % 2 ^ 64 % n).count i =
      wrappedOccurrences (2 ^ 64) n i start k := by
  rw [List.count, List.countP_map]
  apply List.countP_congr
  simp

/-- As many selections as there are hosts go once through the list, wherever they start. -/
theorem window_perm (c : Config) {start j k : Nat} (hj : j + c.hosts.length ≤ k)
    (h : start + k ≤ 2 ^ 64 ∨ c.hosts.length ∣ 2 ^ 64) :
    ((((List.range k).map fun j => (start + j) % 2 ^ 64 % c.hosts.length).drop j).take
      c.hosts.length).Perm (List.range c.hosts.length) := by
  have hn := c.length_hosts_pos
  have heq : (((List.range k).map fun j => (start + j) % 2 ^ 64 % c.hosts.length).drop j).take
      c.hosts.length = (List.range c.hosts.length).map (c.position (.ofNat (start + j))) := by
    apply List.ext_getElem
    · simp
      omega
    · intro t ht _
      have ht : t < c.hosts.length := by
        simp at ht
        omega
      simp only [List.getElem_take, List.getElem_drop, List.getElem_map, List.getElem_range,
        Config.position, UInt64.toNat_ofNat', Nat.mod_add_mod]
      rcases h with h | h
      · rw [Nat.mod_eq_of_lt (show start + (j + t) < 2 ^ 64 by omega),
          Nat.mod_eq_of_lt (show start + j < 2 ^ 64 by omega), Nat.add_assoc]
      · rw [Nat.mod_mod_of_dvd _ h, Nat.add_mod ((start + j) % 2 ^ 64), Nat.mod_mod_of_dvd _ h,
          ← Nat.add_mod, Nat.add_assoc]
  rw [heq]
  exact c.positions_perm _

/-- Any two positions are returned equally often up to two, and up to one unless the cursor wraps
out of step with the host list. -/
theorem selectTimes_fair (s : Shared) (metered : Bool) (c : Config) (profile : String) (k : Nat)
    (w : σ) (hk : k ≤ 2 ^ 64) :
    ∃ calls after w',
      (s.selectTimes metered (Request.probeBy .noop out) { config := c, profile } k).run w =
        pure ((calls, after), w') ∧
      calls.length = k ∧
      ∑ i ∈ Finset.range c.hosts.length, (Call.positions calls).count i = k ∧
      (∀ i < c.hosts.length, ∀ j < c.hosts.length,
        (Call.positions calls).count i ≤ (Call.positions calls).count j + 2) ∧
      ((s.cursors.value profile).toNat + k ≤ 2 ^ 64 ∨ c.hosts.length ∣ 2 ^ 64 →
        (∀ i < c.hosts.length, ∀ j < c.hosts.length,
          (Call.positions calls).count i ≤ (Call.positions calls).count j + 1) ∧
        ∀ j, j + c.hosts.length ≤ k →
          (((Call.positions calls).drop j).take c.hosts.length).Perm
            (List.range c.hosts.length)) := by
  obtain ⟨calls, after, w', hrun, hlength, hpositions⟩ :=
    selectTimes_noop out s metered c profile k w
  have hv := (UInt64.toNat_lt (s.cursors.value profile)).le
  have hcount (i : Nat) : (Call.positions calls).count i =
      wrappedOccurrences (2 ^ 64) c.hosts.length i (s.cursors.value profile).toNat k := by
    rw [hpositions, count_map_wrapped]
  refine ⟨calls, after, w', hrun, hlength, ?_, ?_, fun h => ⟨?_, ?_⟩⟩
  · have hmem : ∀ i ∈ (Call.positions calls : Multiset Nat), i ∈ Finset.range c.hosts.length := by
      intro i hi
      rw [Multiset.mem_coe, hpositions] at hi
      obtain ⟨j, -, rfl⟩ := List.mem_map.1 hi
      exact Finset.mem_range.2 (Nat.mod_lt _ c.length_hosts_pos)
    have hsum := Multiset.sum_count_eq_card hmem
    simp only [Multiset.coe_count, Multiset.coe_card] at hsum
    rw [hsum, hpositions, List.length_map, List.length_range]
  · intro i hi j hj
    rw [hcount, hcount]
    exact wrappedOccurrences_le_add_two hi hj hv hk
  · intro i hi j hj
    rw [hcount, hcount, wrappedOccurrences_eq h, wrappedOccurrences_eq h]
    exact occurrences_le_add_one hi hj _ k
  · intro j hj
    rw [hpositions]
    exact window_perm c hj h

def ticking : Surroundings (StateM Nat) where
  clock := modifyGet fun t => (t, t + 1)
  connect _ _ _ := pure .unanswered
  execute _ _ _ := pure .killed

/-- The cursor may wrap on the way when the number of hosts is in step with it. -/
theorem selectTimes_fair_two_hosts :
    5 ≤ 2 ^ 64 ∧ (2 ^ 64 - 1 + 5 ≤ 2 ^ 64 ∨ Config.twoHosts.hosts.length ∣ 2 ^ 64) ∧
    ∃ calls after w',
      (selectTimes { cursors := Cursors.empty.seed "p" (.ofNat (2 ^ 64 - 1)) } true
        (Request.probeBy .noop ticking) { config := Config.twoHosts, profile := "p" } 5).run 0 =
        pure ((calls, after), w') ∧
      calls.length = 5 ∧
      ∑ i ∈ Finset.range 2, (Call.positions calls).count i = 5 ∧
      ∀ i < 2, ∀ j < 2, (Call.positions calls).count i ≤ (Call.positions calls).count j + 1 := by
  have hdvd : Config.twoHosts.hosts.length ∣ 2 ^ 64 := by decide
  obtain ⟨calls, after, w', hrun, hlength, hsum, -, hstep⟩ :=
    selectTimes_fair ticking { cursors := Cursors.empty.seed "p" (.ofNat (2 ^ 64 - 1)) } true
      Config.twoHosts "p" 5 0 (by norm_num)
  exact ⟨by norm_num, .inr hdvd, calls, after, w', hrun, hlength, hsum, (hstep (.inr hdvd)).1⟩

end Shared
end HostRotation
