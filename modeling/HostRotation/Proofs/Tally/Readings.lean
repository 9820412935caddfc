import HostRotation.Proofs.Tally.Recordings

namespace HostRotation

open Tally (Write)

def Glimpse.Agrees (x : HostTally) : Glimpse → Prop
  | .successes n => n = x.successes
  | .failures n m => n = x.successes ∧ m = x.failures
  | .meanLatency n m mean => n = x.successes ∧ m = x.failures ∧ mean = x.meanLatency

namespace SharedTally

variable {s t u : SharedTally} {ws : List Write} {w : Option Write}

/-- The entries to copy are those of their hosts, and all hosts but these, and possibly one more,
have been copied. -/
structure Copied (s : SharedTally) (todo : List (String × Nat)) (hosts : Table HostMetrics)
    (but : Option String) : Prop where
  installed : ∀ e ∈ todo, s.installed[e.1]? = some e.2
  copied : ∀ h : String, but = some h ∨ (∃ i, (h, i) ∈ todo) ∨
    hosts[h]? = s.tally.hosts[h]?.map (HostTally.metrics h)

def Agrees (s : SharedTally) : Reading → Prop
  | .waiting => True
  | .copying todo hosts => s.Copied todo hosts none
  | .inEntry h i seen todo hosts =>
    s.installed[h]? = some i ∧ seen.Agrees (s.entry i) ∧ s.Copied todo hosts h
  | .copied x => x = { hosts := (s.tally.snapshot 0).hosts }
  | .selectionsRead x => x = { hosts := (s.tally.snapshot 0).hosts, selections := s.selections }
  | .failedRead x =>
    x = { hosts := (s.tally.snapshot 0).hosts, selections := s.selections, failed := s.failed }
  | .probesRead x => x = s.tally.snapshot 0
  | .ended x => x = s.tally.snapshot x.uptime

theorem Copied.start {todo : List (String × Nat)} (ht : todo.Perm s.installed.toList) :
    s.Copied todo ∅ none where
  installed := by
    intro e he
    exact Std.ExtTreeMap.mem_toList_iff_getElem?_eq_some.1 (ht.mem_iff.1 he)
  copied := by
    intro h
    cases hi : s.installed[h]? with
    | none => exact .inr (.inr (by simp [getElem?_hosts_tally, hi]))
    | some i =>
      have hmem := ht.mem_iff.2 (Std.ExtTreeMap.mem_toList_iff_getElem?_eq_some.2 hi)
      exact .inr (.inl ⟨i, hmem⟩)

theorem Copied.pop {h : String} {i : Nat} {todo : List (String × Nat)}
    {hosts : Table HostMetrics} (hc : s.Copied ((h, i) :: todo) hosts none) :
    s.Copied todo hosts h where
  installed := by
    intro e he
    exact hc.installed e (List.mem_cons_of_mem _ he)
  copied := by
    intro k
    rcases hc.copied k with hk | ⟨j, hj⟩ | hk
    · cases hk
    · rcases List.mem_cons.1 hj with hj | hj
      · cases hj
        exact .inl rfl
      · exact .inr (.inl ⟨j, hj⟩)
    · exact .inr (.inr hk)

theorem Copied.insert {h : String} {i : Nat} {todo : List (String × Nat)}
    {hosts : Table HostMetrics} (hi : s.installed[h]? = some i) (hc : s.Copied todo hosts h) :
    s.Copied todo (hosts.insert h ((s.entry i).metrics h)) none where
  installed := hc.installed
  copied := by
    intro k
    rw [Std.ExtTreeMap.getElem?_insert]
    rcases hc.copied k with hk | hk | hk
    · obtain rfl : h = k := Option.some.inj hk
      simp [getElem?_hosts_tally, hi]
    · exact .inr (.inl hk)
    · refine .inr (.inr ?_)
      split
      · next hhk =>
        obtain rfl : h = k := by simpa using hhk
        simp [getElem?_hosts_tally, hi]
      · exact hk

theorem Copied.eq_snapshot {hosts : Table HostMetrics} (hc : s.Copied [] hosts none) :
    hosts = (s.tally.snapshot 0).hosts := by
  apply Std.ExtTreeMap.ext_getElem?
  intro h
  rw [Tally.getElem?_hosts_snapshot]
  rcases hc.copied h with hk | ⟨i, hi⟩ | hk
  · cases hk
  · cases hi
  · exact hk

theorem Agrees.load {x y : Reading} (h : s.Agrees x) (hy : s.load x = some y) : s.Agrees y := by
  cases x with
  | copying todo hosts =>
    cases todo with
    | nil =>
      cases hy
      rw [Agrees, Copied.eq_snapshot h]
    | cons e todo =>
      cases hy
      exact ⟨h.installed e List.mem_cons_self, rfl, h.pop⟩
  | inEntry k i seen todo hosts =>
    obtain ⟨hi, hseen, hc⟩ := h
    cases seen with
    | successes n =>
      cases hy
      exact ⟨hi, ⟨hseen, rfl⟩, hc⟩
    | failures n m =>
      cases hy
      obtain ⟨rfl, rfl⟩ := hseen
      exact ⟨hi, ⟨rfl, rfl, rfl⟩, hc⟩
    | meanLatency n m mean =>
      cases hy
      obtain ⟨rfl, rfl, rfl⟩ := hseen
      exact hc.insert hi
  | copied x | selectionsRead x | failedRead x =>
    cases hy
    cases h
    rfl
  | waiting | probesRead x | ended x => cases hy

/-- Since some state, nothing has happened but readings, and those that have begun since agree with
it. -/
structure Quiet (s t : SharedTally) : Prop where
  same : t = { s with readings := t.readings }
  length_le : s.readings.length ≤ t.readings.length
  agrees : ∀ k x, s.readings.length ≤ k → t.readings[k]? = some x → s.Agrees x

theorem Quiet.refl (s : SharedTally) : s.Quiet s where
  same := rfl
  length_le := Nat.le_refl _
  agrees := by
    intro k x hk hx
    rw [List.getElem?_eq_none hk] at hx
    cases hx

theorem Quiet.begin (h : s.Quiet t) : s.Quiet { t with readings := t.readings ++ [.waiting] } where
  same := congrArg (fun u => { u with readings := t.readings ++ [Reading.waiting] }) h.same
  length_le := by
    rw [List.length_append]
    exact Nat.le_add_right_of_le h.length_le
  agrees := by
    intro k x hk hx
    rcases of_getElem?_snoc hx with hx | rfl
    · exact h.agrees k x hk hx
    · trivial

theorem Quiet.advance (h : s.Quiet t) {k : Nat} {x y : Reading} (hk : t.readings[k]? = some x)
    (hy : s.Agrees x → s.Agrees y) : s.Quiet (t.advanceReading k y) where
  same := congrArg (fun u => { u with readings := t.readings.set k y }) h.same
  length_le := by
    rw [advanceReading, List.length_set]
    exact h.length_le
  agrees := by
    intro j z hj hz
    rcases of_getElem?_set hz with hz | ⟨rfl, rfl⟩
    · exact h.agrees j z hj hz
    · exact hy (h.agrees k x hj hk)

theorem Quiet.step (hset : s.Settled) (h : s.Quiet t) (hs : Step t w u)
    (hlen : u.recordings.length = s.recordings.length) : s.Quiet u := by
  have hrecordings : t.recordings = s.recordings := by rw [h.same]
  -- a recording that has ended takes no step
  have hnone {d : Nat} {x : Recording} {w : Write} {ws : List Write}
      (hd : t.recordings[d]? = some x) (hx : x.unwritten = w :: ws) : False := by
    rw [hrecordings] at hd
    rw [hset x (List.mem_of_getElem? hd)] at hx
    cases hx
  cases hs with
  | start r => simp [hrecordings] at hlen
  | count hd hx | lookUp hd hx | miss hd hx | getMade hd hx | make hd hx | add hd hx =>
    exact (hnone hd hx).elim
  | startReading => exact h.begin
  | lock hk ht =>
    have hinstalled : t.installed = s.installed := by rw [h.same]
    exact h.advance hk fun _ => Copied.start (hinstalled ▸ ht)
  | load hk hy =>
    rw [h.same] at hy
    exact h.advance hk fun hx => hx.load hy
  | readUptime hk uptime =>
    refine h.advance hk ?_
    rintro rfl
    rfl

theorem Run.quiet (hset : s.Settled) (hr : Run s ws t)
    (hlen : t.recordings.length = s.recordings.length) : s.Quiet t := by
  induction hr with
  | nil => exact .refl s
  | @snoc ws w t u hr hs ih =>
    have hle := hr.length_recordings
    have hle' := (Run.nil.snoc hs).length_recordings
    exact (ih (by omega)).step hset hs hlen

theorem advanceReading_advanceReading (s : SharedTally) (k : Nat) (x y : Reading) :
    (s.advanceReading k x).advanceReading k y = s.advanceReading k y := by
  rw [advanceReading, advanceReading, advanceReading, List.set_set]

theorem getElem?_readings_advanceReading {k : Nat} {x : Reading} (hk : s.readings[k]? = some x)
    (y : Reading) : (s.advanceReading k y).readings[k]? = some y :=
  List.getElem?_set_self (List.getElem?_eq_some_iff.1 hk).1

theorem Run.load {k : Nat} {x y z : Reading} (hr : Run s [] (s.advanceReading k x))
    (hk : s.readings[k]? = some y) (hz : s.load x = some z) :
    Run s [] (s.advanceReading k z) := by
  have hx := getElem?_readings_advanceReading hk x
  rw [← advanceReading_advanceReading s k x z]
  exact hr.snoc (.load hx hz)

theorem Run.exists_copied {k : Nat} {x y : Reading} (hr : Run s [] (s.advanceReading k x))
    (hk : s.readings[k]? = some y) (hx : x.holdsLock = true) :
    ∃ z, Run s [] (s.advanceReading k (.copied z)) := by
  induction hn : x.remaining using Nat.strongRecOn generalizing x with
  | ind n ih =>
    obtain ⟨z, hz, hlt⟩ := s.exists_load hx
    have hload := hr.load hk hz
    cases hlock : z.holdsLock with
    | true => exact ih z.remaining (hn ▸ hlt) hload hlock rfl
    | false =>
      obtain ⟨c, rfl⟩ : ∃ c, z = .copied c := by
        cases x with
        | copying todo hosts =>
          cases todo
          all_goals cases hz
          · exact ⟨_, rfl⟩
          · cases hlock
        | inEntry h i seen todo hosts =>
          cases seen
          all_goals
            cases hz
            cases hlock
        | waiting | copied | selectionsRead | failedRead | probesRead | ended => cases hx
      exact ⟨c, hload⟩

theorem Run.ended {k : Nat} {x : Snapshot} {y : Reading}
    (hr : Run s [] (s.advanceReading k (.copied x))) (hk : s.readings[k]? = some y)
    (uptime : UInt64) : Run s [] (s.advanceReading k (.ended { x with
      selections := s.selections, failed := s.failed, probes := s.probes, uptime })) := by
  have hread := ((hr.load hk rfl).load hk rfl).load hk rfl
  have hended := hread.snoc (.readUptime (getElem?_readings_advanceReading hk _) uptime)
  rwa [advanceReading_advanceReading] at hended

/-- A reading that begins can end without any other step. -/
theorem exists_ended (s : SharedTally) (uptime : UInt64) :
    ∃ x : Snapshot, x.uptime = uptime ∧
      Run s [] { s with readings := s.readings ++ [.ended x] } := by
  let t : SharedTally := { s with readings := s.readings ++ [.waiting] }
  have hk : t.readings[s.readings.length]? = some .waiting := by simp [t]
  have hstart : Run s [] t := Run.nil.snoc .startReading
  obtain ⟨x, hx⟩ := ((Run.nil (s := t)).snoc (.lock hk (.refl _))).exists_copied hk rfl
  have hended := hstart.trans (hx.ended hk uptime)
  rw [advanceReading, List.set_append_right _ _ (Nat.le_refl _), Nat.sub_self] at hended
  exact ⟨_, rfl, hended⟩

theorem Run.tally_of_settled {t : Tally} (hr : Run (ofTally t) ws s) (hset : s.Settled) :
    s.tally = (s.recordings.map Recording.record).foldl Tally.record t := by
  have hrest : s.recordings.flatMap Recording.unwritten = [] := List.flatMap_eq_nil_iff.2 hset
  have hwrites := hr.perm_writes rfl
  rw [hrest, List.append_nil] at hwrites
  rw [(Sound.ofTally t).tally_run hr, tally_ofTally, Tally.foldl_record]
  exact Tally.foldl_write_perm hwrites t

/-- Recordings that run at once lose nothing. When they have ended, the tally is that of the same
recordings one after the other, in any order, and a reading that begins then gives its snapshot.
They can always be brought to an end. -/
theorem settled_eq_sequential {t : Tally} (hr : Run (ofTally t) ws s) :
    (∃ ws' u, Run s ws' u ∧ u.Settled ∧
      u.recordings.map Recording.record = s.recordings.map Recording.record) ∧
    (s.Settled → ∀ records : List Record, records.Perm (s.recordings.map Recording.record) →
      s.tally = records.foldl Tally.record t ∧
      (∀ (ws' : List Write) (u : SharedTally) (k : Nat) (x : Snapshot), Run s ws' u →
        u.recordings.length = s.recordings.length → s.readings.length ≤ k →
        u.readings[k]? = some (.ended x) → x = (records.foldl Tally.record t).snapshot x.uptime) ∧
      ∀ uptime, Run s [] { s with
        readings := s.readings ++ [.ended ((records.foldl Tally.record t).snapshot uptime)] }) := by
  refine ⟨((Sound.ofTally t).run hr).exists_settled, fun hset records hperm => ?_⟩
  have htally : s.tally = records.foldl Tally.record t :=
    (hr.tally_of_settled hset).trans (Tally.foldl_record_perm hperm.symm t)
  have hend {ws' : List Write} {u : SharedTally} {k : Nat} {x : Snapshot} (hu : Run s ws' u)
      (hlen : u.recordings.length = s.recordings.length) (hk : s.readings.length ≤ k)
      (hx : u.readings[k]? = some (.ended x)) : x = s.tally.snapshot x.uptime := by
    exact (hu.quiet hset hlen).agrees k _ hk hx
  rw [← htally]
  refine ⟨rfl, fun _ _ _ _ hu hlen hk hx => hend hu hlen hk hx, fun uptime => ?_⟩
  obtain ⟨x, rfl, hx⟩ := s.exists_ended uptime
  rw [← hend hx rfl (Nat.le_refl _) (by simp)]
  exact hx

def race : List Write :=
  [.selections, .probes, .enter "a", .enter "a", .success "a", .selected "a", .latency "a" 5]

theorem run_race : ∃ s, Run (ofTally {}) race s ∧ s.Settled ∧
    s.recordings.map Recording.record = [.selection "a", .probe "a" true 5] := by
  have h₁ := (Run.nil (s := ofTally {})).snoc (.start (.selection "a"))
  have h₂ := h₁.snoc (.start (.probe "a" true 5))
  have h₃ := h₂.snoc (.count (d := 0) rfl rfl rfl)
  have h₄ := h₃.snoc (.count (d := 1) rfl rfl rfl)
  have h₅ := h₄.snoc (.miss (d := 0) rfl rfl rfl (by simp [ofTally, advance, count]))
  have h₆ := h₅.snoc (.miss (d := 1) rfl rfl rfl (by simp [ofTally, advance, count]))
  have h₇ := h₆.snoc (.make (d := 1) rfl rfl rfl (unlocked_of_no_reading rfl)
    (by simp [ofTally, advance, count]))
  have h₈ := h₇.snoc (.getMade (d := 0) (i := 0) rfl rfl rfl
    (unlocked_of_no_reading rfl) (by simp [ofTally, advance, count]))
  have h₉ := h₈.snoc (.add (d := 1) (i := 0) rfl rfl rfl)
  have h₁₀ := h₉.snoc (.add (d := 0) (i := 0) rfl rfl rfl)
  have h₁₁ := h₁₀.snoc (.add (d := 1) (i := 0) rfl rfl rfl)
  exact ⟨_, h₁₁, by simp [Settled, advance, count, ofTally], rfl⟩

/-- The one that is slower to make the entry uses it too, and both orders give the same snapshot. -/
theorem settled_eq_sequential_race :
    ∃ s, Run (ofTally {}) race s ∧ s.Settled ∧
      s.tally = (Tally.addProbe {} "a" true 5).addSelection "a" ∧
      s.tally = (Tally.addSelection {} "a").addProbe "a" true 5 := by
  obtain ⟨s, hr, hset, hrec⟩ := run_race
  have hseq := (settled_eq_sequential hr).2 hset
  exact ⟨s, hr, hset, (hseq [.probe "a" true 5, .selection "a"] (hrec ▸ .swap _ _ [])).1,
    (hseq [.selection "a", .probe "a" true 5] (hrec ▸ .refl _)).1⟩

end SharedTally
end HostRotation
