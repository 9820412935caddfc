import HostRotation.Proofs.Lists
import HostRotation.Proofs.Tally.Steps

namespace HostRotation

open Tally (Write)

/-! ### The program of a recording -/

theorem Record.host?_of_suffix {r : Record} {h : String} {ws : List Write}
    (hs : .enter h :: ws <:+ r.writes) : ∀ w ∈ ws, w.host? = some h := by
  cases r with
  | selection k =>
    obtain ⟨rfl, rfl⟩ : h = k ∧ ws = [.selected k] := by
      simpa [writes, List.suffix_cons_iff] using hs
    simp [Write.host?]
  | probe k alive l =>
    obtain ⟨rfl, rfl⟩ : h = k ∧ ws = [if alive then .success k else .failure k, .latency k l] := by
      cases alive <;> simpa [writes, List.suffix_cons_iff] using hs
    cases alive <;> simp [Write.host?]
  | failure => simp [writes, List.suffix_cons_iff] at hs

theorem Record.enter_of_suffix {r : Record} {w w' : Write} {ws : List Write}
    (hs : w :: w' :: ws <:+ r.writes) (hw : w.host? = none) : ∃ h, w' = .enter h := by
  cases r with
  | selection k =>
    simp only [writes, List.suffix_cons_iff, List.cons.injEq] at hs
    grind [Write.host?]
  | probe k alive l =>
    cases alive
    all_goals
      simp only [writes, List.suffix_cons_iff, List.cons.injEq] at hs
      grind [Write.host?]
  | failure => simp [writes, List.suffix_cons_iff] at hs

namespace Recording

/-- A recording that found an entry is left with changes of the host that has it; before that, the
next change is that of its total, or it enters its host. -/
structure Sound (x : Recording) (installed : Table Nat) : Prop where
  suffix : x.unwritten <:+ x.record.writes
  found : ∀ i, x.lookup = .found i → ∀ w ∈ x.unwritten,
    ∃ h, w.host? = some h ∧ installed[h]? = some i
  unfound : (∀ i, x.lookup ≠ .found i) → ∀ w ws, x.unwritten = w :: ws →
    w.host? = none ∨ ∃ h, w = .enter h

variable {x : Recording} {installed installed' : Table Nat} {w : Write} {ws : List Write}

theorem Sound.start (r : Record) (installed : Table Nat) : (start r).Sound installed where
  suffix := List.suffix_rfl
  found := nofun
  unfound := by
    intro _ w ws hw
    cases r
    all_goals
      cases hw
      exact .inl rfl

theorem Sound.mono (h : x.Sound installed)
    (hi : ∀ (k : String) (i : Nat), installed[k]? = some i → installed'[k]? = some i) :
    x.Sound installed' where
  suffix := h.suffix
  found := by
    intro i hl w hw
    obtain ⟨k, hk, hki⟩ := h.found i hl w hw
    exact ⟨k, hk, hi k i hki⟩
  unfound := h.unfound

theorem Sound.tail (h : x.Sound installed) (hx : x.unwritten = w :: ws) :
    ws <:+ x.record.writes := by
  have hs := h.suffix
  rw [hx] at hs
  exact (List.suffix_cons w ws).trans hs

theorem Sound.counted (h : x.Sound installed) (hx : x.unwritten = w :: ws) (hw : w.host? = none) :
    Sound { x with unwritten := ws } installed where
  suffix := h.tail hx
  found := by
    intro i hl
    obtain ⟨k, hk, -⟩ := h.found i hl w (hx ▸ List.mem_cons_self)
    rw [hw] at hk
    cases hk
  unfound := by
    rintro - w' ws' rfl
    exact .inr (Record.enter_of_suffix (hx ▸ h.suffix) hw)

theorem Sound.entered (h : x.Sound installed) {k : String} {i : Nat}
    (hx : x.unwritten = .enter k :: ws) (hi : installed[k]? = some i) :
    Sound { x with unwritten := ws, lookup := .found i } installed where
  suffix := h.tail hx
  found := by
    rintro _ ⟨⟩ w hw
    exact ⟨k, Record.host?_of_suffix (hx ▸ h.suffix) w hw, hi⟩
  unfound hl := absurd rfl (hl i)

theorem Sound.missed (h : x.Sound installed) (hl : x.lookup = .pending) :
    Sound { x with lookup := .missed } installed where
  suffix := h.suffix
  found := nofun
  unfound _ := h.unfound (by rw [hl]; nofun)

theorem Sound.added (h : x.Sound installed) {i : Nat} (hx : x.unwritten = w :: ws)
    (hl : x.lookup = .found i) : Sound { x with unwritten := ws } installed where
  suffix := h.tail hx
  found := by
    intro j hj w' hw'
    exact h.found j hj w' (hx ▸ List.mem_cons_of_mem w hw')
  unfound hl' := absurd hl (hl' i)

theorem remaining_lt (hx : x.unwritten = w :: ws) (l : Lookup) :
    remaining { x with unwritten := ws, lookup := l } < x.remaining := by
  simp only [remaining, hx, List.length_cons]
  split
  all_goals
    split
    all_goals omega

end Recording

namespace SharedTally

variable {s t u : SharedTally} {ws : List Write} {w : Option Write}

/-! ### Entries -/

/-- Every host in use has an entry of its own, and recordings know the right ones. -/
structure Sound (s : SharedTally) : Prop where
  installed : ∀ (h : String) (i : Nat), s.installed[h]? = some i → i < s.entries.length
  distinct : ∀ (h k : String) (i : Nat),
    s.installed[h]? = some i → s.installed[k]? = some i → h = k
  recordings : ∀ (d : Nat) (x : Recording), s.recordings[d]? = some x → x.Sound s.installed

namespace Sound

theorem set (h : s.Sound) {d : Nat} {y : Recording} (hy : y.Sound s.installed)
    (hi : t.installed = s.installed) (he : t.entries.length = s.entries.length)
    (hr : t.recordings = s.recordings.set d y) : t.Sound where
  installed := by
    rw [hi, he]
    exact h.installed
  distinct := by
    rw [hi]
    exact h.distinct
  recordings := by
    intro e x hx
    rw [hr] at hx
    rw [hi]
    rcases of_getElem?_set hx with hx | ⟨-, rfl⟩
    · exact h.recordings e x hx
    · exact hy

theorem same (h : s.Sound) (hi : t.installed = s.installed) (he : t.entries = s.entries)
    (hr : t.recordings = s.recordings) : t.Sound where
  installed := by
    rw [hi, he]
    exact h.installed
  distinct := by
    rw [hi]
    exact h.distinct
  recordings := by
    rw [hi, hr]
    exact h.recordings

theorem start (h : s.Sound) (r : Record) :
    Sound { s with recordings := s.recordings ++ [.start r] } where
  installed := h.installed
  distinct := h.distinct
  recordings := by
    intro d x hx
    rcases of_getElem?_snoc hx with hx | rfl
    · exact h.recordings d x hx
    · exact .start r s.installed

theorem make (h : s.Sound) {d : Nat} {x : Recording} {k : String} {ws : List Write}
    (hd : s.recordings[d]? = some x) (hx : x.unwritten = .enter k :: ws)
    (hk : s.installed[k]? = none) (hi : t.installed = s.installed.insert k s.entries.length)
    (he : t.entries.length = s.entries.length + 1)
    (hr : t.recordings = s.recordings.set d
      { x with unwritten := ws, lookup := .found s.entries.length }) : t.Sound := by
  have hmono (j : String) (i : Nat) (hj : s.installed[j]? = some i) : t.installed[j]? = some i := by
    rw [hi]
    exact Table.getElem?_insert_of_none hk hj
  -- an entry is the new one, or it was there, and then its number is smaller
  have hold {j : String} {i : Nat} (hj : t.installed[j]? = some i) :
      k = j ∧ s.entries.length = i ∨ s.installed[j]? = some i := by
    rw [hi] at hj
    exact Table.of_getElem?_insert hj
  refine ⟨?_, ?_, ?_⟩
  · intro j i hj
    rcases hold hj with ⟨-, rfl⟩ | hj
    · omega
    · have hlt := h.installed j i hj
      omega
  · intro j j' i hj hj'
    rcases hold hj with ⟨rfl, rfl⟩ | hj
    · rcases hold hj' with ⟨rfl, -⟩ | hj'
      · rfl
      · exact absurd (h.installed j' _ hj') (Nat.lt_irrefl _)
    · rcases hold hj' with ⟨rfl, rfl⟩ | hj'
      · exact absurd (h.installed j _ hj) (Nat.lt_irrefl _)
      · exact h.distinct j j' i hj hj'
  · intro e y hy
    rw [hr] at hy
    rcases of_getElem?_set hy with hy | ⟨-, rfl⟩
    · exact (h.recordings e y hy).mono hmono
    · exact ((h.recordings d x hd).mono hmono).entered hx (by simp [hi])

theorem step (h : s.Sound) (hs : Step s w t) : t.Sound := by
  cases hs with
  | start r => exact h.start r
  | @count d x w ws hd hx hw =>
    have hy := (h.recordings d x hd).counted hx hw
    cases w
    case selections | failed | probes => exact h.set hy rfl rfl rfl
    all_goals cases hw
  | @lookUp d i x k ws hd hx hl hi => exact h.set ((h.recordings d x hd).entered hx hi) rfl rfl rfl
  | @miss d x k ws hd hx hl hi => exact h.set ((h.recordings d x hd).missed hl) rfl rfl rfl
  | @getMade d i x k ws hd hx hl hu hi =>
    exact h.set ((h.recordings d x hd).entered hx hi) rfl rfl rfl
  | @make d x k ws hd hx hl hu hi => exact h.make hd hx hi rfl (by simp [advance]) rfl
  | @add d i x w ws hd hx hl =>
    exact h.set ((h.recordings d x hd).added hx hl) rfl (by simp [advance]) rfl
  | startReading => exact h.same rfl rfl rfl
  | lock hk ht => exact h.same rfl rfl rfl
  | load hk hy => exact h.same rfl rfl rfl
  | readUptime hk uptime => exact h.same rfl rfl rfl

end Sound

/-! ### Changes of the tally -/

theorem getElem?_hosts_tally (s : SharedTally) (h : String) :
    s.tally.hosts[h]? = s.installed[h]?.map s.entry := by
  simp [tally, Std.ExtTreeMap.getElem?_map]

theorem getElem?_keys_of_installed {t : Tally} {h : String} {i : Nat}
    (hi : (ofTally t).installed[h]? = some i) : t.hosts.keys[i]? = some h := by
  rw [ofTally, Std.ExtTreeMap.getElem?_map] at hi
  obtain ⟨x, hx, rfl⟩ := Option.map_eq_some_iff.1 hi
  exact Table.getElem?_keys_idxOf hx

theorem tally_ofTally (t : Tally) : (ofTally t).tally = t := by
  refine Tally.ext_counts rfl rfl rfl fun h => ?_
  rw [getElem?_hosts_tally]
  simp only [ofTally, Std.ExtTreeMap.getElem?_map]
  cases hh : t.hosts[h]? with
  | none => rfl
  | some x => simp [entry, List.getElem?_map, Table.getElem?_keys_idxOf hh, Tally.host, hh]

theorem tally_enter {h : String} {i : Nat} (hi : s.installed[h]? = some i) :
    s.tally = s.tally.write (.enter h) := by
  refine Tally.ext_counts rfl rfl rfl fun k => ?_
  rw [Tally.getElem?_hosts_write]
  split
  · next he =>
    obtain rfl : h = k := Option.some.inj he
    simp [Tally.Write.onHost, Tally.host, getElem?_hosts_tally, hi]
  · rfl

namespace Sound

theorem tally_make (hs : s.Sound) {k : String} (hk : s.installed[k]? = none) {x : List Recording} :
    tally { s with
      entries := s.entries ++ [({} : HostTally)]
      installed := s.installed.insert k s.entries.length
      recordings := x } = s.tally.write (.enter k) := by
  refine Tally.ext_counts rfl rfl rfl fun j => ?_
  rw [getElem?_hosts_tally, Tally.getElem?_hosts_write, Std.ExtTreeMap.getElem?_insert]
  by_cases hkj : k = j
  · subst hkj
    simp [entry, Tally.Write.host?, Tally.Write.onHost, Tally.host, getElem?_hosts_tally, hk]
  · have hne : Tally.Write.host? (.enter k) ≠ some j := by simpa [Tally.Write.host?] using hkj
    rw [if_neg hne, if_neg (by simpa using hkj), getElem?_hosts_tally]
    cases hj : s.installed[j]? with
    | none => rfl
    | some i => simp [entry, List.getElem?_append_left (hs.installed j i hj)]

theorem tally_add (hs : s.Sound) {w : Write} {h : String} {i : Nat} (hw : w.host? = some h)
    (hi : s.installed[h]? = some i) {x : List Recording} :
    tally { s with entries := s.entries.set i (w.onHost (s.entry i)), recordings := x } =
      s.tally.write w := by
  have hlt := hs.installed h i hi
  rw [Tally.write_of_host? hw]
  refine Tally.ext_counts rfl rfl rfl fun k => ?_
  rw [getElem?_hosts_tally, Tally.getElem?_hosts_updateHost]
  by_cases hk : h = k
  · subst hk
    simp [entry, hi, hlt, Tally.host, getElem?_hosts_tally]
  · rw [if_neg hk, getElem?_hosts_tally]
    cases hj : s.installed[k]? with
    | none => rfl
    | some j =>
      have hne : i ≠ j := by
        rintro rfl
        exact hk (hs.distinct h k i hi hj)
      simp [entry, List.getElem?_set_ne hne]

/-- A step makes the change of the tally that it says it makes. -/
theorem tally_step (h : s.Sound) (hs : Step s w t) :
    t.tally = w.toList.foldl Tally.write s.tally := by
  cases hs with
  | @count d x w ws hd hx hw =>
    cases w
    case selections | failed | probes => rfl
    all_goals cases hw
  | @lookUp d i x k ws hd hx hl hi => exact tally_enter hi
  | @getMade d i x k ws hd hx hl hu hi => exact tally_enter hi
  | @make d x k ws hd hx hl hu hi => exact h.tally_make hi
  | @add d i x w ws hd hx hl =>
    obtain ⟨k, hk, hki⟩ := (h.recordings d x hd).found i hl w (hx ▸ List.mem_cons_self)
    exact h.tally_add hk hki
  | start | miss | startReading | lock | load | readUptime => rfl

theorem run (h : s.Sound) (hr : Run s ws t) : t.Sound := by
  induction hr with
  | nil => exact h
  | snoc _ hs ih => exact ih.step hs

theorem tally_run (h : s.Sound) (hr : Run s ws t) : t.tally = ws.foldl Tally.write s.tally := by
  induction hr with
  | nil => rfl
  | snoc hr hs ih => rw [(h.run hr).tally_step hs, ih, List.foldl_append]

theorem ofTally (t : Tally) : (ofTally t).Sound where
  installed := by
    intro h i hi
    have hlt := (List.getElem?_eq_some_iff.1 (getElem?_keys_of_installed hi)).1
    simpa [SharedTally.ofTally] using hlt
  distinct := by
    intro h k i hh hk
    have hkey := (getElem?_keys_of_installed hh).symm.trans (getElem?_keys_of_installed hk)
    exact Option.some.inj hkey
  recordings := nofun

end Sound

/-! ### What a run leaves to do -/

theorem recordings_count (s : SharedTally) (w : Write) : (s.count w).recordings = s.recordings := by
  cases w <;> rfl

theorem readings_count (s : SharedTally) (w : Write) : (s.count w).readings = s.readings := by
  cases w <;> rfl

theorem Step.recordings (hs : Step s w t) :
    (∃ r, w = none ∧ t.recordings = s.recordings ++ [.start r]) ∨
    (∃ d x y, s.recordings[d]? = some x ∧ t.recordings = s.recordings.set d y ∧
      y.record = x.record ∧ x.unwritten = w.toList ++ y.unwritten) ∨
    (w = none ∧ t.recordings = s.recordings) := by
  cases hs with
  | start r => exact .inl ⟨r, rfl, rfl⟩
  | @count d x w ws hd hx hw =>
    refine .inr (.inl ⟨d, x, { x with unwritten := ws }, hd, ?_, rfl, hx⟩)
    rw [advance, recordings_count]
  | lookUp hd hx | getMade hd hx | make hd hx | add hd hx =>
    exact .inr (.inl ⟨_, _, _, hd, rfl, rfl, hx⟩)
  | miss hd => exact .inr (.inl ⟨_, _, _, hd, rfl, rfl, rfl⟩)
  | startReading | lock | load | readUptime => exact .inr (.inr ⟨rfl, rfl⟩)

theorem Run.trans {ws' : List Write} (h : Run s ws t) (h' : Run t ws' u) : Run s (ws ++ ws') u := by
  induction h' with
  | nil => rwa [List.append_nil]
  | snoc _ hs ih =>
    rw [← List.append_assoc]
    exact ih.snoc hs

theorem Run.length_recordings (hr : Run s ws t) : s.recordings.length ≤ t.recordings.length := by
  induction hr with
  | nil => exact Nat.le_refl _
  | @snoc ws w t u _ hs ih =>
    obtain ⟨r, -, hu⟩ | ⟨d, x, y, -, hu, -⟩ | ⟨-, hu⟩ := hs.recordings
    · rw [hu, List.length_append]
      exact Nat.le_add_right_of_le ih
    · rwa [hu, List.length_set]
    · rwa [hu]

/-- The changes of a run and those that it leaves to make are those of its recordings. -/
theorem Run.perm_writes (hs : s.recordings = []) (hr : Run s ws t) :
    (ws ++ t.recordings.flatMap Recording.unwritten).Perm
      ((t.recordings.map Recording.record).flatMap Record.writes) := by
  induction hr with
  | nil => simp [hs]
  | @snoc ws w t u _ hs ih =>
    obtain ⟨r, rfl, hu⟩ | ⟨d, x, y, hd, hu, hrec, hx⟩ | ⟨rfl, hu⟩ := hs.recordings
    · rw [hu]
      simp only [List.flatMap_append, List.map_append, Option.toList_none, List.append_nil,
        ← List.append_assoc]
      refine ih.append ?_
      simp [Recording.start]
    · have hmap : u.recordings.map Recording.record = t.recordings.map Recording.record := by
        rw [hu]
        exact map_set_eq_self hd hrec
      rw [hmap, hu, List.append_assoc]
      exact ((perm_flatMap_set hd hx).symm.append_left ws).trans ih
    · simpa [hu] using ih

/-! ### Coming to an end -/

def remaining (s : SharedTally) : Nat :=
  (s.recordings.map Recording.remaining).sum + (s.readings.map Reading.remaining).sum

theorem exists_load {x : Reading} (s : SharedTally) (hx : x.holdsLock = true) :
    ∃ y, s.load x = some y ∧ y.remaining < x.remaining := by
  cases x with
  | copying todo hosts =>
    cases todo with
    | nil => exact ⟨_, rfl, by simp [Reading.remaining]⟩
    | cons e todo => exact ⟨_, rfl, by simp [Reading.remaining]; omega⟩
  | inEntry h i seen todo hosts =>
    cases seen
    all_goals exact ⟨_, rfl, by simp [Reading.remaining]⟩
  | waiting | copied | selectionsRead | failedRead | probesRead | ended => cases hx

namespace Sound

theorem exists_step_recording (h : s.Sound) (hu : s.Unlocked) {d : Nat} {x : Recording}
    (hd : s.recordings[d]? = some x) (hx : x.unwritten ≠ []) :
    ∃ w t y, Step s w t ∧ t.recordings = s.recordings.set d y ∧ t.readings = s.readings ∧
      y.record = x.record ∧ y.remaining < x.remaining := by
  obtain ⟨w, ws, hws⟩ := List.exists_cons_of_ne_nil hx
  have hunfound := (h.recordings d x hd).unfound
  have hlt (l : Lookup) := Recording.remaining_lt hws l
  by_cases hfound : ∃ i, x.lookup = .found i
  · obtain ⟨i, hl⟩ := hfound
    exact ⟨_, _, _, .add hd hws hl, rfl, rfl, rfl, hlt _⟩
  · rcases hunfound (not_exists.1 hfound) w ws hws with hw | ⟨k, rfl⟩
    · refine ⟨_, _, { x with unwritten := ws }, .count hd hws hw, ?_, ?_, rfl, hlt _⟩
      · rw [advance, recordings_count]
      · rw [advance, readings_count]
    · cases hl : x.lookup with
      | pending =>
        cases hi : s.installed[k]? with
        | some i => exact ⟨_, _, _, .lookUp hd hws hl hi, rfl, rfl, rfl, hlt _⟩
        | none =>
          refine ⟨_, _, _, .miss hd hws hl hi, rfl, rfl, rfl, ?_⟩
          simp only [Recording.remaining, hws, hl, List.length_cons, if_true, reduceCtorEq,
            if_false]
          omega
      | missed =>
        cases hi : s.installed[k]? with
        | some i => exact ⟨_, _, _, .getMade hd hws hl hu hi, rfl, rfl, rfl, hlt _⟩
        | none => exact ⟨_, _, _, .make hd hws hl hu hi, rfl, rfl, rfl, hlt _⟩
      | found i => exact absurd ⟨i, hl⟩ hfound

theorem exists_step (h : s.Sound) (hn : ¬ s.Settled) :
    ∃ w t, Step s w t ∧ t.remaining < s.remaining ∧
      t.recordings.map Recording.record = s.recordings.map Recording.record := by
  by_cases hu : s.Unlocked
  · obtain ⟨x, hx, hne⟩ : ∃ x ∈ s.recordings, x.unwritten ≠ [] := by simpa [Settled] using hn
    obtain ⟨d, hd⟩ := List.mem_iff_getElem?.1 hx
    obtain ⟨w, t, y, hs, hr, hrd, hrec, hlt⟩ := h.exists_step_recording hu hd hne
    refine ⟨w, t, hs, ?_, ?_⟩
    · rw [SharedTally.remaining, SharedTally.remaining, hr, hrd]
      have hsum := sum_map_set_lt hd hlt
      omega
    · rw [hr]
      exact map_set_eq_self hd hrec
  · -- a reading may keep all recordings waiting, but it can go on itself
    obtain ⟨x, hx, hlock⟩ : ∃ x ∈ s.readings, x.holdsLock = true := by simpa [Unlocked] using hu
    obtain ⟨k, hk⟩ := List.mem_iff_getElem?.1 hx
    obtain ⟨y, hy, hlt⟩ := s.exists_load hlock
    refine ⟨none, _, .load hk hy, ?_, rfl⟩
    have hsum := sum_map_set_lt hk hlt
    exact Nat.add_lt_add_left hsum _

/-- The recordings that have begun can always end. -/
theorem exists_settled (h : s.Sound) :
    ∃ ws t, Run s ws t ∧ t.Settled ∧
      t.recordings.map Recording.record = s.recordings.map Recording.record := by
  induction hn : s.remaining using Nat.strongRecOn generalizing s with
  | ind n ih =>
    by_cases hset : s.Settled
    · exact ⟨[], s, .nil, hset, rfl⟩
    · obtain ⟨w, t, hs, hlt, hrec⟩ := h.exists_step hset
      obtain ⟨ws, u, hr, hu, hrec'⟩ := ih t.remaining (hn ▸ hlt) (h.step hs) rfl
      exact ⟨_, u, (Run.nil.snoc hs).trans hr, hu, hrec'.trans hrec⟩

end Sound

end SharedTally
end HostRotation
