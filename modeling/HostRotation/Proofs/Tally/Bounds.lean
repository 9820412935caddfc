import HostRotation.Proofs.Binary64.Rounding
import HostRotation.Proofs.Tally.Recordings

namespace HostRotation

open Tally (Write)

/-! ### Totals come first -/

namespace Tally.Write

def selectedHost? : Write → Option String
  | .selected h => some h
  | _ => none

def checkedHost? : Write → Option String
  | .success h | .failure h => some h
  | _ => none

theorem count_filterMap_selectedHost? (ws : List Write) (h : String) :
    (ws.filterMap selectedHost?).count h = ws.count (.selected h) := by
  induction ws with
  | nil => rfl
  | cons w ws ih =>
    rw [List.filterMap_cons]
    cases w <;> simp [selectedHost?, List.count_cons, ih]

theorem count_filterMap_checkedHost? (ws : List Write) (h : String) :
    (ws.filterMap checkedHost?).count h = ws.count (.success h) + ws.count (.failure h) := by
  induction ws with
  | nil => rfl
  | cons w ws ih =>
    rw [List.filterMap_cons]
    cases w <;> simp [checkedHost?, List.count_cons, ih]
    all_goals split <;> omega

/-- No record leaves a total to be changed without the host that it counts. -/
def Before (total : Write) (host? : Write → Option String) : Prop :=
  ∀ (r : Record) (ws : List Write), ws <:+ r.writes →
    (r.writes.filterMap host?).length + ws.count total ≤
      r.writes.count total + (ws.filterMap host?).length

theorem before_of_head {total : Write} {host? : Write → Option String}
    (htail : ∀ r : Record, total ∉ r.writes.tail)
    (hall : ∀ r : Record, (r.writes.filterMap host?).length ≤ r.writes.count total) :
    Before total host? := by
  intro r ws hs
  obtain ⟨w, rest, hr⟩ : ∃ w rest, r.writes = w :: rest := by cases r <;> exact ⟨_, _, rfl⟩
  have hmem := htail r
  rw [hr, List.suffix_cons_iff] at hs
  rw [hr, List.tail_cons] at hmem
  rcases hs with rfl | hs
  · rw [hr, Nat.add_comm]
  · have hnone : ws.count total = 0 := List.count_eq_zero.2 fun h => hmem (hs.mem h)
    rw [hnone]
    exact (hall r).trans (Nat.le_add_right _ _)

theorem selections_before : Before .selections selectedHost? := by
  apply before_of_head
  · intro r
    rcases r with _ | ⟨_, _ | _, _⟩ | _ <;> simp [Record.writes]
  · intro r
    rcases r with _ | ⟨_, _ | _, _⟩ | _
    all_goals simp [Record.writes, List.filterMap_cons, selectedHost?]

theorem probes_before : Before .probes checkedHost? := by
  apply before_of_head
  · intro r
    rcases r with _ | ⟨_, _ | _, _⟩ | _ <;> simp [Record.writes]
  · intro r
    rcases r with _ | ⟨_, _ | _, _⟩ | _
    all_goals simp [Record.writes, List.filterMap_cons, checkedHost?]

end Tally.Write

theorem Record.nodup_writes (r : Record) : r.writes.Nodup := by
  rcases r with _ | ⟨_, _ | _, _⟩ | _ <;> simp [writes]

def Glimpse.Within (ws : List Write) (h : String) : Glimpse → Prop
  | .successes n => n.toNat ≤ ws.count (.success h)
  | .failures n m | .meanLatency n m _ =>
    n.toNat + m.toNat ≤ ws.count (.success h) + ws.count (.failure h)

namespace Snapshot

def selectedSum (x : Snapshot) : Nat :=
  (x.hosts.toList.map fun e => e.2.selected.toNat).sum

def checksSum (x : Snapshot) : Nat :=
  (x.hosts.toList.map fun e => e.2.successes.toNat + e.2.failures.toNat).sum

theorem selectedCount_le_selectedSum (x : Snapshot) (h : String) :
    (x.selectedCount h).toNat ≤ x.selectedSum := by
  rw [selectedCount]
  cases hm : x.hosts[h]? with
  | none => exact Nat.zero_le _
  | some m =>
    have hmem := Std.ExtTreeMap.mem_toList_iff_getElem?_eq_some.2 hm
    exact List.le_sum_of_mem (List.mem_map_of_mem (f := fun e => e.2.selected.toNat) hmem)

theorem share_of_le {x : Snapshot} {h : String} (hle : x.selectedCount h ≤ x.selections) :
    (x.share h).toRat ≤ 1 ∧ (x.selections ≠ 0 → ∃ a b,
      Binary64.ofNat? (x.selectedCount h).toNat = some a ∧
      Binary64.ofNat? x.selections.toNat = some b ∧ a.div? b = some (x.share h)) := by
  by_cases h0 : x.selections = 0
  · rw [share, if_pos h0]
    refine ⟨?_, fun hne => absurd h0 hne⟩
    have hzero : Binary64.zero.units = 0 := rfl
    rw [Binary64.toRat, hzero]
    norm_num
  · have hpos : 0 < x.selections.toNat := by
      rw [← UInt64.toNat_zero]
      exact UInt64.lt_iff_toNat_lt.1 (UInt64.pos_iff_ne_zero.2 h0)
    obtain ⟨a, b, y, ha, hb, hy, hone⟩ :=
      Binary64.exists_div?_ofNat? (UInt64.le_iff_toNat_le.1 hle) hpos x.selections.toNat_lt
    have hshare : x.share h = y := by
      rw [share, if_neg h0, ha, hb]
      simp [hy]
    rw [hshare]
    exact ⟨hone, fun _ => ⟨a, b, ha, hb, hy⟩⟩

end Snapshot

namespace SharedTally

variable {s t u : SharedTally} {ws : List Write} {w : Option Write}

/-! ### Numbers of changes -/

theorem Run.length_filterMap_le {total : Write} {host? : Write → Option String}
    (hb : Write.Before total host?) (hs : s.Sound) (h₀ : s.recordings = []) (hr : Run s ws t) :
    (ws.filterMap host?).length ≤ ws.count total := by
  have hrest (rs : List Recording) (hsuffix : ∀ x ∈ rs, x.unwritten <:+ x.record.writes) :
      (((rs.map Recording.record).flatMap Record.writes).filterMap host?).length +
          (rs.flatMap Recording.unwritten).count total ≤
        ((rs.map Recording.record).flatMap Record.writes).count total +
          ((rs.flatMap Recording.unwritten).filterMap host?).length := by
    induction rs with
    | nil => simp
    | cons x rs ih =>
      have hx := hb x.record x.unwritten (hsuffix x List.mem_cons_self)
      have hrs := ih fun y hy => hsuffix y (List.mem_cons_of_mem x hy)
      simp only [List.map_cons, List.flatMap_cons, List.filterMap_append, List.length_append,
        List.count_append]
      omega
  -- the run has made what the recordings hold, less what they have left to do
  have hall := hrest t.recordings fun x hx => by
    obtain ⟨d, hd⟩ := List.mem_iff_getElem?.1 hx
    exact ((hs.run hr).recordings d x hd).suffix
  have hperm := hr.perm_writes h₀
  have hlength := (hperm.filterMap host?).length_eq
  have hcount := hperm.count_eq total
  rw [List.filterMap_append, List.length_append] at hlength
  rw [List.count_append] at hcount
  omega

theorem Run.count_le_length (h₀ : s.recordings = []) (hr : Run s ws t) (w : Write) :
    ws.count w ≤ t.recordings.length := by
  have hcount := (hr.perm_writes h₀).count_eq w
  rw [List.count_append, count_flatMap_of_nodup Record.nodup_writes] at hcount
  have hle := List.countP_le_length (p := fun r : Record => w ∈ r.writes)
    (l := t.recordings.map Recording.record)
  rw [List.length_map] at hle
  omega

/-! ### What readings have seen -/

structure HostsWithin (ws : List Write) (hosts : Table HostMetrics) : Prop where
  selected : ∀ (h : String) (m : HostMetrics), hosts[h]? = some m →
    m.selected.toNat ≤ ws.count (.selected h)
  checks : ∀ (h : String) (m : HostMetrics), hosts[h]? = some m →
    m.successes.toNat + m.failures.toNat ≤ ws.count (.success h) + ws.count (.failure h)

/-- What was read is no more than the changes so far, and the totals that were read are no less than
what was read of the hosts. -/
def Within (s : SharedTally) (ws : List Write) : Reading → Prop
  | .waiting => True
  | .copying todo hosts => (∀ e ∈ todo, s.installed[e.1]? = some e.2) ∧ HostsWithin ws hosts
  | .inEntry h i seen todo hosts =>
    s.installed[h]? = some i ∧ seen.Within ws h ∧
      (∀ e ∈ todo, s.installed[e.1]? = some e.2) ∧ HostsWithin ws hosts
  | .copied x => HostsWithin ws x.hosts
  | .selectionsRead x | .failedRead x =>
    HostsWithin ws x.hosts ∧ x.selectedSum ≤ x.selections.toNat
  | .probesRead x | .ended x =>
    x.selectedSum ≤ x.selections.toNat ∧ x.checksSum ≤ x.probes.toNat

theorem HostsWithin.mono {hosts : Table HostMetrics} (h : HostsWithin ws hosts)
    (ws' : List Write) : HostsWithin (ws ++ ws') hosts where
  selected := by
    intro k m hm
    rw [List.count_append]
    exact (h.selected k m hm).trans (Nat.le_add_right _ _)
  checks := by
    intro k m hm
    have hle := h.checks k m hm
    rw [List.count_append, List.count_append]
    omega

theorem Within.mono {x : Reading} (h : s.Within ws x) (ws' : List Write)
    (hi : ∀ (k : String) (i : Nat), s.installed[k]? = some i → t.installed[k]? = some i) :
    t.Within (ws ++ ws') x := by
  cases x with
  | waiting => trivial
  | copying todo hosts => exact ⟨fun e he => hi _ _ (h.1 e he), h.2.mono ws'⟩
  | inEntry k i seen todo hosts =>
    obtain ⟨hk, hseen, htodo, hhosts⟩ := h
    refine ⟨hi k i hk, ?_, fun e he => hi _ _ (htodo e he), hhosts.mono ws'⟩
    cases seen
    all_goals
      simp only [Glimpse.Within, List.count_append] at hseen ⊢
      omega
  | copied x => exact HostsWithin.mono h ws'
  | selectionsRead x | failedRead x => exact ⟨h.1.mono ws', h.2⟩
  | probesRead x | ended x => exact h

theorem sum_hosts_le {hosts : Table HostMetrics} {f : HostMetrics → Nat} {l : List String}
    (hf : ∀ (h : String) (m : HostMetrics), hosts[h]? = some m → f m ≤ l.count h) :
    (hosts.toList.map fun e => f e.2).sum ≤ l.length := by
  calc (hosts.toList.map fun e => f e.2).sum ≤ (hosts.toList.map fun e => l.count e.1).sum := by
        apply List.sum_le_sum
        intro e he
        exact hf e.1 e.2 (Std.ExtTreeMap.mem_toList_iff_getElem?_eq_some.1 he)
    _ = l.countP (· ∈ hosts) := Table.sum_count_toList hosts l
    _ ≤ l.length := List.countP_le_length

theorem HostsWithin.selectedSum_le {x : Snapshot} (h : HostsWithin ws x.hosts) :
    x.selectedSum ≤ (ws.filterMap Write.selectedHost?).length := by
  apply sum_hosts_le (f := fun m => m.selected.toNat)
  intro k m hm
  rw [Write.count_filterMap_selectedHost?]
  exact h.selected k m hm

theorem HostsWithin.checksSum_le {x : Snapshot} (h : HostsWithin ws x.hosts) :
    x.checksSum ≤ (ws.filterMap Write.checkedHost?).length := by
  apply sum_hosts_le (f := fun m => m.successes.toNat + m.failures.toNat)
  intro k m hm
  rw [Write.count_filterMap_checkedHost?]
  exact h.checks k m hm

theorem toNat_ofNat_le (n : Nat) : (UInt64.ofNat n).toNat ≤ n := by
  rw [UInt64.toNat_ofNat']
  exact Nat.mod_le n _

/-- The totals and counts of a tally in which changes were made, none of them so often that a total
starts over. -/
structure Exact (s : SharedTally) (ws : List Write) : Prop where
  counted : s.tally.Counted ws
  selections : ws.count .selections < 2 ^ 64
  probes : ws.count .probes < 2 ^ 64
  selected : (ws.filterMap Write.selectedHost?).length ≤ ws.count .selections
  checked : (ws.filterMap Write.checkedHost?).length ≤ ws.count .probes

theorem Exact.entry (h : s.Exact ws) {k : String} {i : Nat} (hi : s.installed[k]? = some i) :
    (s.entry i).selected.toNat ≤ ws.count (.selected k) ∧
      (s.entry i).successes.toNat ≤ ws.count (.success k) ∧
      (s.entry i).failures.toNat ≤ ws.count (.failure k) := by
  have hentry : s.tally.host k = s.entry i := by simp [Tally.host, getElem?_hosts_tally, hi]
  rw [← hentry, h.counted.selected, h.counted.successes, h.counted.failures]
  exact ⟨toNat_ofNat_le _, toNat_ofNat_le _, toNat_ofNat_le _⟩

theorem Exact.selectedSum_le (h : s.Exact ws) {x : Snapshot} (hx : HostsWithin ws x.hosts) :
    x.selectedSum ≤ s.selections.toNat := by
  have htotal : s.selections = .ofNat (ws.count .selections) := h.counted.selections
  rw [htotal, UInt64.toNat_ofNat_of_lt' h.selections]
  exact hx.selectedSum_le.trans h.selected

theorem Exact.checksSum_le (h : s.Exact ws) {x : Snapshot} (hx : HostsWithin ws x.hosts) :
    x.checksSum ≤ s.probes.toNat := by
  have htotal : s.probes = .ofNat (ws.count .probes) := h.counted.probes
  rw [htotal, UInt64.toNat_ofNat_of_lt' h.probes]
  exact hx.checksSum_le.trans h.checked

theorem HostsWithin.insert {hosts : Table HostMetrics} (h : HostsWithin ws hosts) {k : String}
    {m : HostMetrics} (hs : m.selected.toNat ≤ ws.count (.selected k))
    (hc : m.successes.toNat + m.failures.toNat ≤
      ws.count (.success k) + ws.count (.failure k)) :
    HostsWithin ws (hosts.insert k m) := by
  refine ⟨?_, ?_⟩
  · intro j m' hm
    rcases Table.of_getElem?_insert hm with ⟨rfl, rfl⟩ | hm
    · exact hs
    · exact h.selected j m' hm
  · intro j m' hm
    rcases Table.of_getElem?_insert hm with ⟨rfl, rfl⟩ | hm
    · exact hc
    · exact h.checks j m' hm

theorem Within.load {x y : Reading} (h : s.Within ws x) (he : s.Exact ws)
    (hy : s.load x = some y) : s.Within ws y := by
  cases x with
  | copying todo hosts =>
    obtain ⟨htodo, hhosts⟩ := h
    cases todo with
    | nil =>
      cases hy
      exact hhosts
    | cons e todo =>
      cases hy
      have hi := htodo e List.mem_cons_self
      exact ⟨hi, (he.entry hi).2.1, fun e' he' => htodo e' (List.mem_cons_of_mem e he'), hhosts⟩
  | inEntry k i seen todo hosts =>
    obtain ⟨hi, hseen, htodo, hhosts⟩ := h
    obtain ⟨hselected, -, hfailures⟩ := he.entry hi
    cases seen with
    | successes n =>
      cases hy
      exact ⟨hi, Nat.add_le_add hseen hfailures, htodo, hhosts⟩
    | failures n m =>
      cases hy
      exact ⟨hi, hseen, htodo, hhosts⟩
    | meanLatency n m mean =>
      cases hy
      exact ⟨htodo, hhosts.insert hselected hseen⟩
  | copied x =>
    cases hy
    exact ⟨h, he.selectedSum_le (x := x) h⟩
  | selectionsRead x =>
    cases hy
    exact h
  | failedRead x =>
    cases hy
    exact ⟨h.2, he.checksSum_le (x := x) h.1⟩
  | waiting | probesRead x | ended x => cases hy

theorem Run.exact (hr : Run (ofTally {}) ws s) (hlt : s.recordings.length < 2 ^ 64) :
    s.Exact ws where
  counted := by
    rw [(Sound.ofTally {}).tally_run hr, tally_ofTally]
    exact Tally.counted_foldl_write ws
  selections := (hr.count_le_length rfl _).trans_lt hlt
  probes := (hr.count_le_length rfl _).trans_lt hlt
  selected := hr.length_filterMap_le Write.selections_before (.ofTally {}) rfl
  checked := hr.length_filterMap_le Write.probes_before (.ofTally {}) rfl

theorem Step.installed_mono (hs : Step s w t) (k : String) (i : Nat)
    (hi : s.installed[k]? = some i) : t.installed[k]? = some i := by
  cases hs with
  | @count d x w ws hd hx hw => cases w <;> exact hi
  | make hd hx hl hu hnone => exact Table.getElem?_insert_of_none hnone hi
  | start | lookUp | miss | getMade | add | startReading | lock | load | readUptime => exact hi

theorem Within.step (he : t.Exact ws) (hs : Step t w u)
    (h : ∀ (k : Nat) (x : Reading), t.readings[k]? = some x → t.Within ws x) (k : Nat) (x : Reading)
    (hx : u.readings[k]? = some x) : u.Within (ws ++ w.toList) x := by
  have hmono (y : Reading) (hy : t.Within ws y) : u.Within (ws ++ w.toList) y :=
    hy.mono w.toList hs.installed_mono
  have hset {j : Nat} {y z : Reading} (hz : (t.readings.set j z)[k]? = some x)
      (hy : t.readings[j]? = some y) (hnew : t.Within ws y → t.Within ws z) :
      u.Within (ws ++ w.toList) x := by
    apply hmono
    rcases of_getElem?_set hz with hold | ⟨-, rfl⟩
    · exact h k x hold
    · exact hnew (h j y hy)
  cases hs with
  | startReading =>
    rcases of_getElem?_snoc hx with hx | rfl
    · exact hmono x (h k x hx)
    · trivial
  | lock hk htodo =>
    refine hset hx hk fun _ => ⟨fun e he => ?_, ⟨?_, ?_⟩⟩
    · exact Std.ExtTreeMap.mem_toList_iff_getElem?_eq_some.1 (htodo.mem_iff.1 he)
    · simp
    · simp
  | load hk hy => exact hset hx hk fun hy' => hy'.load he hy
  | readUptime hk uptime => exact hset hx hk fun hy => hy
  | @count d y w ws hd hy hw =>
    rw [advance, readings_count] at hx
    exact hmono x (h k x hx)
  | start | lookUp | miss | getMade | make | add => exact hmono x (h k x hx)

theorem Run.within (hr : Run (ofTally {}) ws s) (hlt : s.recordings.length < 2 ^ 64) (k : Nat)
    (x : Reading) (hx : s.readings[k]? = some x) : s.Within ws x := by
  induction hr generalizing k x with
  | nil => cases hx
  | @snoc ws w t u hr hs ih =>
    have ht := (Run.nil.snoc hs).length_recordings.trans_lt hlt
    exact Within.step (hr.exact ht) hs (ih ht) k x hx

/-- A snapshot that is taken while recordings run, too few for a count to start over, has no more
selections and checks for its hosts than in total; so a host's share of the selections is a number
from zero to one. -/
theorem snapshot_within_totals (hr : Run (ofTally {}) ws s)
    (hlt : s.recordings.length < 2 ^ 64) {k : Nat} {x : Snapshot}
    (hx : s.readings[k]? = some (.ended x)) :
    x.selectedSum ≤ x.selections.toNat ∧ x.checksSum ≤ x.probes.toNat ∧
      ∀ h, x.selectedCount h ≤ x.selections ∧ 0 ≤ (x.share h).toRat ∧ (x.share h).toRat ≤ 1 ∧
        (x.selections ≠ 0 → ∃ a b, Binary64.ofNat? (x.selectedCount h).toNat = some a ∧
          Binary64.ofNat? x.selections.toNat = some b ∧ a.div? b = some (x.share h)) := by
  obtain ⟨hselected, hchecks⟩ := hr.within hlt k _ hx
  refine ⟨hselected, hchecks, fun h => ?_⟩
  have hle : x.selectedCount h ≤ x.selections :=
    UInt64.le_iff_toNat_le.2 ((x.selectedCount_le_selectedSum h).trans hselected)
  obtain ⟨hone, hquotient⟩ := Snapshot.share_of_le hle
  exact ⟨hle, (x.share h).toRat_nonneg, hone, hquotient⟩

theorem run_overtaken : ∃ s, Run (ofTally {})
    [.selections, .enter "a", .selected "a", .selections, .enter "a", .selected "a"] s ∧
    s.recordings.length = 2 ∧
    s.readings = [.ended {
      selections := 2, uptime := 7
      hosts := (∅ : Table HostMetrics).insert "a" { host := "a", selected := 1 } }] := by
  have h₁ := (Run.nil (s := ofTally {})).snoc (.start (.selection "a"))
  have h₂ := h₁.snoc (.count (d := 0) rfl rfl rfl)
  have h₃ := h₂.snoc (.miss (d := 0) rfl rfl rfl (by simp [ofTally, advance, count]))
  have h₄ := h₃.snoc (.make (d := 0) rfl rfl rfl (unlocked_of_no_reading rfl)
    (by simp [ofTally, advance, count]))
  have h₅ := h₄.snoc (.add (d := 0) (i := 0) rfl rfl rfl)
  have h₆ := (h₅.snoc (.start (.selection "a"))).snoc (.count (d := 1) rfl rfl rfl)
  have hfirst : Run (ofTally {}) [.selections, .enter "a", .selected "a", .selections] {
      selections := 2, entries := [{ selected := 1 }], installed := (∅ : Table Nat).insert "a" 0
      recordings := [⟨.selection "a", [], .found 0⟩,
        ⟨.selection "a", [.enter "a", .selected "a"], .pending⟩] } := h₆
  have h₇ := (hfirst.snoc .startReading).snoc (.lock (k := 0) rfl (.refl [("a", 0)]))
  have h₈ := (h₇.snoc (.load (k := 0) rfl rfl)).snoc (.load (k := 0) rfl rfl)
  have h₉ := (h₈.snoc (.load (k := 0) rfl rfl)).snoc (.load (k := 0) rfl rfl)
  have h₁₀ := h₉.snoc (.lookUp (d := 1) (i := 0) rfl rfl rfl (by simp [advanceReading]))
  have h₁₁ := h₁₀.snoc (.add (d := 1) (i := 0) rfl rfl rfl)
  have h₁₂ := (h₁₁.snoc (.load (k := 0) rfl rfl)).snoc (.load (k := 0) rfl rfl)
  have h₁₃ := (h₁₂.snoc (.load (k := 0) rfl rfl)).snoc (.load (k := 0) rfl rfl)
  exact ⟨_, h₁₃.snoc (.readUptime (k := 0) rfl 7), rfl, rfl⟩

/-- The snapshot has one of the two selections for the host, and its share is a half. -/
theorem snapshot_within_totals_overtaken :
    ∃ ws s x, Run (ofTally {}) ws s ∧ s.recordings.length = 2 ∧ s.readings[0]? = some (.ended x) ∧
      x.selectedSum = 1 ∧ x.selections = 2 ∧ (x.share "a").toRat = 1 / 2 ∧
      x.selectedSum ≤ x.selections.toNat ∧ (x.share "a").toRat ≤ 1 := by
  obtain ⟨s, hr, hlen, hreadings⟩ := run_overtaken
  have hx : s.readings[0]? = some (.ended {
      selections := 2, uptime := 7
      hosts := (∅ : Table HostMetrics).insert "a" { host := "a", selected := 1 } }) := by
    rw [hreadings]
    rfl
  obtain ⟨hselected, -, hshare⟩ := snapshot_within_totals hr (by rw [hlen]; decide) hx
  refine ⟨_, s, _, hr, hlen, hx, rfl, rfl, ?_, hselected, (hshare "a").2.2.1⟩
  refine Binary64.toRat_eq_div (n := 1) (d := 2) two_pos ?_
  decide +kernel

end SharedTally
end HostRotation
