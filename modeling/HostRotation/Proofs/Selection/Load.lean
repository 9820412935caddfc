import Mathlib.Order.Bounds.Basic
import HostRotation.Proofs.Cursors.Consecutive
import HostRotation.Proofs.Selection.ByHost
import HostRotation.Proofs.Selection.Fairness

namespace HostRotation

open Residues

theorem Call.selected?_eq_some_iff {call : Call} {x : Selected} :
    call.selected? = some x ↔ call = .ended (.ok x) := by
  rcases call with _ | (_ | _) <;> simp [selected?]

namespace Request

variable (r : Request) (live : String → Liveness)

def Available (i : Nat) : Prop :=
  ∃ host, r.config.hosts[i]? = some host ∧ r.exclude ≠ some host ∧ live host = .alive

/-- The way up to a position, round the list, from the available position before it. It is the whole
list when there is no other. -/
def IsGap (i gap : Nat) : Prop :=
  IsLeast { d | 0 < d ∧ d ≤ r.config.hosts.length ∧
    r.Available live ((i + r.config.hosts.length - d) % r.config.hosts.length) } gap

def accepts (stop : Stop) : Bool :=
  !r.excludes stop.host && (live stop.host).isAlive

variable {r live}

theorem Available.lt {i : Nat} (h : r.Available live i) : i < r.config.hosts.length := by
  obtain ⟨host, hi, -⟩ := h
  exact (List.getElem?_eq_some_iff.1 hi).1

theorem accepts_stop (cursor : UInt64) (k : Nat) :
    r.accepts live (r.config.stop cursor k) = true ↔
      r.Available live (r.config.position cursor k) := by
  have hh : r.config.hosts[r.config.position cursor k]? = some (r.config.stop cursor k).host :=
    List.getElem?_eq_getElem (r.config.position_lt cursor k)
  have hl : ∀ l : Liveness, l.isAlive = true ↔ l = .alive := by
    intro l
    cases l <;> simp [Liveness.isAlive]
  simp only [accepts, Available, excludes, hh, hl, Bool.and_eq_true, Bool.not_eq_true',
    decide_eq_false_iff_not, Option.some.injEq, exists_eq_left']

theorem selected?_fate (ahead : List Stop) :
    (r.fate live ahead).2.selected? =
      (ahead.find? (r.accepts live)).map fun stop => ⟨stop.host, stop.index⟩ := by
  induction ahead with
  | nil => simp [Call.selected?]
  | cons stop ahead ih =>
    cases hx : r.excludes stop.host with
    | true => simp [fate_cons_excluded ahead hx, accepts, hx, ih]
    | false =>
      cases hl : live stop.host with
      | alive =>
        simp [fate_cons_alive ahead hx hl, accepts, hx, hl, Liveness.isAlive, Call.selected?]
      | dead => simp [fate_cons_dead ahead hx hl, accepts, hx, hl, Liveness.isAlive, ih]

theorem outcome_eq_ended {cursor : UInt64} {k : Nat} (hk : k < r.config.hosts.length)
    (ha : r.Available live (r.config.position cursor k))
    (hfirst : ∀ j < k, ¬r.Available live (r.config.position cursor j)) :
    (r.outcome live cursor).2 =
      .ended (.ok ⟨(r.config.stop cursor k).host, r.config.position cursor k⟩) := by
  have hfind : (List.range r.config.hosts.length).find?
      (r.accepts live ∘ r.config.stop cursor) = some k := by
    rw [List.find?_range_eq_some]
    refine ⟨(accepts_stop cursor k).2 ha, List.mem_range.2 hk, fun j hj => ?_⟩
    rw [Bool.not_eq_true', ← Bool.not_eq_true]
    exact fun h => hfirst j hj ((accepts_stop cursor j).1 h)
  rw [← Call.selected?_eq_some_iff, outcome, selected?_fate, Config.stops_eq_map_range,
    List.find?_map, hfind]
  rfl

theorem exists_first (ha : ∃ i, r.Available live i) (cursor : UInt64) :
    ∃ k < r.config.hosts.length, r.Available live (r.config.position cursor k) ∧
      ∀ j < k, ¬r.Available live (r.config.position cursor j) := by
  classical
  obtain ⟨i, hi⟩ := ha
  have hoffset : ∃ k, k < r.config.hosts.length ∧
      r.Available live (r.config.position cursor k) := by
    have hm := (r.config.positions_perm cursor).mem_iff.2 (List.mem_range.2 hi.lt)
    obtain ⟨k, hk, rfl⟩ := List.mem_map.1 hm
    exact ⟨k, List.mem_range.1 hk, hi⟩
  obtain ⟨hk, hak⟩ := Nat.find_spec hoffset
  exact ⟨_, hk, hak, fun j hj hj' => Nat.find_min hoffset hj ⟨hj.trans hk, hj'⟩⟩

theorem position_distance {i : Nat} (hi : i < r.config.hosts.length) (cursor : UInt64) :
    r.config.position cursor (distance r.config.hosts.length cursor.toNat i) = i := by
  rw [Config.position, Nat.mod_add_mod, add_distance hi]

theorem position_before {cursor : UInt64} {i k d : Nat} (hk : r.config.position cursor k = i)
    (hd : d ≤ k) (hn : d ≤ r.config.hosts.length) :
    (i + r.config.hosts.length - d) % r.config.hosts.length =
      r.config.position cursor (k - d) := by
  have hdiv := Nat.div_add_mod (cursor.toNat % r.config.hosts.length + k) r.config.hosts.length
  rw [Config.position] at hk
  rw [hk] at hdiv
  have he : i + r.config.hosts.length - d + r.config.hosts.length *
      ((cursor.toNat % r.config.hosts.length + k) / r.config.hosts.length) =
      cursor.toNat % r.config.hosts.length + (k - d) + r.config.hosts.length := by
    omega
  have hm := congrArg (· % r.config.hosts.length) he
  simpa [Config.position] using hm

/-- A selection returns an available position when the cursor names one that is less than the gap
below it. -/
theorem index_outcome_eq_iff {i gap : Nat} (ha : r.Available live i) (hg : r.IsGap live i gap)
    (cursor : UInt64) :
    (r.outcome live cursor).2.selected?.map Selected.index = some i ↔
      distance r.config.hosts.length cursor.toNat i < gap := by
  have hlt := distance_lt r.config.length_hosts_pos cursor.toNat i
  have hi := position_distance ha.lt cursor
  obtain ⟨⟨hpos, hle, hbefore⟩, hleast⟩ := hg
  constructor
  -- from further below, the walk ends at the available position that the gap starts from
  · intro h
    by_contra hge
    have hge := Nat.not_lt.1 hge
    rw [position_before hi hge hle] at hbefore
    obtain ⟨k, hk, hak, hfirst⟩ := exists_first ⟨i, ha⟩ cursor
    rw [outcome_eq_ended hk hak hfirst] at h
    have hki : r.config.position cursor k = i := Option.some.inj h
    have hkd := r.config.position_inj cursor hk hlt (hki.trans hi.symm)
    exact hfirst _ (by omega) hbefore
  -- from within the gap, there is no available position on the way
  · intro h
    have hfirst : ∀ j < distance r.config.hosts.length cursor.toNat i,
        ¬r.Available live (r.config.position cursor j) := by
      intro j hj hj'
      have hd := position_before hi (Nat.sub_le _ j) (by omega)
      rw [Nat.sub_sub_self hj.le] at hd
      have hge := hleast ⟨Nat.sub_pos_of_lt hj, by omega, hd ▸ hj'⟩
      omega
    rw [outcome_eq_ended hlt (hi.symm ▸ ha) hfirst]
    exact congrArg some hi

theorem Available.exists_isGap {i : Nat} (ha : r.Available live i) :
    ∃ gap, r.IsGap live i gap := by
  classical
  have hturn : ∃ d, 0 < d ∧ d ≤ r.config.hosts.length ∧
      r.Available live ((i + r.config.hosts.length - d) % r.config.hosts.length) :=
    ⟨r.config.hosts.length, r.config.length_hosts_pos, Nat.le_refl _, by
      rwa [Nat.add_sub_cancel, Nat.mod_eq_of_lt ha.lt]⟩
  exact ⟨Nat.find hturn, Nat.find_spec hturn, fun d hd => Nat.find_min' hturn hd⟩

theorem count_positions (cursors : List UInt64) (i : Nat) :
    (Call.positions (cursors.map fun v => (r.outcome live v).2)).count i =
      cursors.countP fun v => (r.outcome live v).2.selected?.map Selected.index = some i := by
  rw [Call.positions, List.filterMap_map, List.count_filterMap]
  exact List.countP_congr fun v _ => by simp

end Request

theorem SharedCursors.countP_consecutive {v : UInt64} {n k i gap : Nat}
    (hv : v.toNat + k ≤ 2 ^ 64) :
    ((consecutive v k).countP fun u => distance n u.toNat i < gap) =
      Nat.count (fun j => distance n (v.toNat + j) i < gap) k := by
  rw [consecutive, List.countP_map]
  apply List.countP_congr
  intro j hj
  have hj := List.mem_range.1 hj
  have he : (v + .ofNat j).toNat = v.toNat + j := by
    rw [UInt64.toNat_add, UInt64.toNat_ofNat', Nat.add_mod_mod, Nat.mod_eq_of_lt (by omega)]
  simp only [Function.comp_apply, he]

namespace Shared

open Request SharedCursors

/-- In full turns through the list without a wrap of the cursor, every selection succeeds, and it
returns each available position as often in each turn as its gap is long, and no other. -/
theorem selectTimes_load {σ : Type} {r : Request} {live : String → Liveness}
    {probe : Request → Stop → StateM σ Answer} (hp : FindsBy live (probe r)) (s : Shared)
    (metered : Bool) (m : Nat) (ha : ∃ i, r.Available live i)
    (hv : (s.cursors.value r.profile).toNat + m * r.config.hosts.length ≤ 2 ^ 64) (w : σ) :
    ∃ calls after w',
      (s.selectTimes metered (fun r stop => some <$> probe r stop) r
        (m * r.config.hosts.length)).run w = pure ((calls, after), w') ∧
      calls.length = m * r.config.hosts.length ∧
      (∀ call ∈ calls, ∃ x, call = .ended (.ok x) ∧ r.Available live x.index ∧
        r.config.hosts[x.index]? = some x.host) ∧
      ∀ i, r.Available live i → ∃ gap, r.IsGap live i gap ∧
        (Call.positions calls).count i = m * gap := by
  obtain ⟨events, w', hrun, -⟩ := selectTimes_eq_outcomes hp s metered
    (m * r.config.hosts.length) w
  rw [drawMany_eq] at hrun
  refine ⟨_, _, w', hrun, by simp [consecutive], fun call hc => ?_, fun i hi => ?_⟩
  · obtain ⟨v, -, rfl⟩ := List.mem_map.1 hc
    obtain ⟨k, hk, hak, hfirst⟩ := exists_first ha v
    exact ⟨_, outcome_eq_ended hk hak hfirst, hak,
      List.getElem?_eq_getElem (r.config.position_lt v k)⟩
  · obtain ⟨gap, hg⟩ := hi.exists_isGap
    refine ⟨gap, hg, ?_⟩
    rw [count_positions]
    simp only [index_outcome_eq_iff hi hg]
    rw [countP_consecutive hv, count_distance hi.lt hg.1.2.1]

/-- The host after a dead one is returned for both, up to the last cursor value. -/
theorem selectTimes_load_two_hosts :
    let r : Request := { config := .twoHosts, profile := "p" }
    let live (host : String) : Liveness := if host = "b" then .alive else .dead
    let probe (_ : Request) (stop : Stop) : StateM Unit Answer :=
      pure (plainAnswer live stop.host)
    let s : Shared := { cursors := Cursors.empty.seed "p" (.ofNat (2 ^ 64 - 4)) }
    FindsBy live (probe r) ∧ (∃ i, r.Available live i) ∧
      (s.cursors.value r.profile).toNat + 2 * r.config.hosts.length ≤ 2 ^ 64 ∧
      ∃ calls after w',
        (s.selectTimes true (fun r stop => some <$> probe r stop) r 4).run () =
          pure ((calls, after), w') ∧
        calls.length = 4 ∧ (Call.positions calls).count 1 = 4 := by
  intro r live probe s
  have hp : FindsBy live (probe r) := findsBy_plainAnswer live
  have hb : r.Available live 1 := ⟨"b", rfl, by simp [r], by simp [live]⟩
  have ha : ¬r.Available live 0 := by
    simp [Available, r, Config.twoHosts, live]
  have hgap : r.IsGap live 1 2 := by
    refine ⟨⟨by decide, by decide, hb⟩, fun d hd => ?_⟩
    obtain ⟨hpos, hle, hbefore⟩ := hd
    by_contra hlt
    obtain rfl : d = 1 := by omega
    change r.Available live ((1 + 2 - 1) % 2) at hbefore
    exact ha hbefore
  have hv : (s.cursors.value r.profile).toNat + 2 * r.config.hosts.length ≤ 2 ^ 64 := by
    simp [s, r, Cursors.value, Cursors.peek_seed, Config.twoHosts]
  obtain ⟨calls, after, w', hrun, hlength, -, hcount⟩ :=
    selectTimes_load hp s true 2 ⟨1, hb⟩ hv ()
  obtain ⟨gap, hg, hc⟩ := hcount 1 hb
  obtain rfl : gap = 2 := hg.unique hgap
  exact ⟨hp, ⟨1, hb⟩, hv, calls, after, w', hrun, hlength, hc⟩

end Shared
end HostRotation
