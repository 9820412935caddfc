import HostRotation.Proofs.Selection.Accounting
import HostRotation.Proofs.Selection.Visits
import HostRotation.Selection.Series

namespace HostRotation

structure Round where
  visits : List Visit
  result : Except NoLiveHost Selected

namespace Round

def events (r : Request) (x : Round) : List Event :=
  x.visits.map Visit.event ++ [r.closing x.result]

def probed (x : Round) : List Stop :=
  Visit.probed x.visits

def answers (x : Round) : List Answer :=
  x.visits.filterMap Visit.answer

end Round

namespace Series

def results (series : Series) : List (Except NoLiveHost Selected) :=
  series.selected.map Except.ok ++ series.failure.toList.map Except.error

/-- How a series of at most so many selections comes about whose first round draws a cursor value:
each round draws the next one, all but the last one succeed, and only a failure ends it early. -/
structure Follows (series : Series) (r : Request) (cursor : UInt64) (n : Nat)
    (rounds : List Round) : Prop where
  selects : ∀ i round, rounds[i]? = some round →
    r.Selects (cursor + .ofNat i) round.visits round.result
  ended : rounds.map Round.result = series.results
  events : series.events = rounds.flatMap (Round.events r)
  length_le : series.selected.length ≤ n
  complete_iff : series.selected.length = n ↔ series.failure = none

variable {r : Request} {cursor : UInt64} {n : Nat} {rounds : List Round} {visits : List Visit}
  {series : Series}

theorem follows_nil (s : Shared) : Follows { shared := s } r cursor 0 [] where
  selects := nofun
  ended := rfl
  events := rfl
  length_le := Nat.le_refl 0
  complete_iff := by simp

theorem follows_failed {e : NoLiveHost} (h : r.Selects cursor visits (.error e)) (s : Shared) :
    Follows { shared := s, events := Round.events r ⟨visits, .error e⟩, failure := some e } r cursor
      (n + 1) [⟨visits, .error e⟩] where
  selects := by
    intro i round hi
    obtain ⟨rfl, rfl⟩ : i = 0 ∧ round = ⟨visits, .error e⟩ := by
      rw [List.getElem?_singleton] at hi
      grind
    simpa using h
  ended := rfl
  events := by simp
  length_le := Nat.zero_le _
  complete_iff := by simp

theorem Follows.precededBy {x : Selected} (h : r.Selects cursor visits (.ok x))
    (hs : series.Follows r (cursor + 1) n rounds) :
    (series.precededBy (Round.events r ⟨visits, .ok x⟩) x).Follows r cursor (n + 1)
      (⟨visits, .ok x⟩ :: rounds) where
  selects := by
    intro i round hi
    cases i with
    | zero =>
      obtain rfl : _ = round := Option.some.inj hi
      simpa using h
    | succ i =>
      have hround := hs.selects i round hi
      rwa [UInt64.add_assoc, UInt64.add_comm 1, ← UInt64.ofNat_one, ← UInt64.ofNat_add] at hround
  ended := by simp [Series.precededBy, hs.ended, Series.results]
  events := by simp [Series.precededBy, hs.events]
  length_le := Nat.succ_le_succ hs.length_le
  complete_iff := by simpa [Series.precededBy] using hs.complete_iff

theorem Follows.length_rounds_le (h : series.Follows r cursor n rounds) : rounds.length ≤ n := by
  have hlength : rounds.length = series.selected.length + series.failure.toList.length := by
    simpa [results] using congrArg List.length h.ended
  have hle := h.length_le
  have hcomplete := h.complete_iff
  cases hf : series.failure with
  | none => simpa [hf] using hlength.trans_le (by simpa [hf] using hle)
  | some e =>
    have hne : series.selected.length ≠ n := by simp [hcomplete, hf]
    rw [hlength, hf, Option.toList_some, List.length_singleton]
    omega

theorem Follows.exists_error_iff (h : series.Follows r cursor n rounds) :
    (∃ round ∈ rounds, ∃ e, round.result = .error e) ↔ series.failure.isSome := by
  have hmem (e : NoLiveHost) : .error e ∈ rounds.map Round.result ↔ series.failure = some e := by
    rw [h.ended]
    simp [results]
  constructor
  · rintro ⟨round, hround, e, he⟩
    rw [(hmem e).1 (List.mem_map.2 ⟨round, hround, he⟩)]
    rfl
  · intro hf
    obtain ⟨e, he⟩ := Option.isSome_iff_exists.1 hf
    obtain ⟨round, hround, hr⟩ := List.mem_map.1 ((hmem e).2 he)
    exact ⟨round, hround, e, hr⟩

end Series

namespace Shared

variable {σ : Type} (probe : Request → Stop → StateM σ Answer) (r : Request) (metered : Bool)

theorem value_cursors_advance (s : Shared) (p : String) :
    (s.advance p).cursors.value p = s.cursors.value p + 1 := by
  simp [Cursors.value, peek_cursors_advance]

theorem tally_record_advance (s : Shared) (p : String) (events : List Event) :
    ((s.advance p).record metered events).tally = (s.record metered events).tally := by
  cases metered <;> rfl

theorem select_round (s : Shared) (w : σ) :
    ∃ (round : Round) (after : Shared) (w' : σ),
      (s.select metered (fun r stop => some <$> probe r stop) r).run w =
        pure ((round.events r, .ended round.result, after), w') ∧
      r.Selects (s.cursors.value r.profile) round.visits round.result ∧
      (round.probed.mapM (probe r)).run w = pure (round.answers, w') ∧
      after = (s.advance r.profile).record metered (round.events r) := by
  obtain ⟨visits, result, w', hrun, hprobes, hwalked⟩ :=
    r.walk_visits probe (r.config.stops (s.cursors.value r.profile)) w
  refine ⟨⟨visits, result⟩, _, w', ?_, hwalked.selects, hprobes, rfl⟩
  rw [select_eq_walk, StateT.run_map, hrun]
  rfl

/-- A series is made of rounds, one after the other, and counts their events. -/
theorem selectUntil_rounds (s : Shared) (n : Nat) (w : σ) :
    ∃ series rounds w',
      (s.selectUntil metered (fun r stop => some <$> probe r stop) r n).run w =
        pure (series, w') ∧
      series.Follows r (s.cursors.value r.profile) n rounds ∧
      ((rounds.flatMap Round.probed).mapM (probe r)).run w =
        pure (rounds.flatMap Round.answers, w') ∧
      series.shared.tally = (s.record metered series.events).tally := by
  -- each round leaves another shared state and another world behind
  induction n generalizing s w with
  | zero =>
    refine ⟨{ shared := s }, [], w, rfl, Series.follows_nil s, rfl, ?_⟩
    cases metered <;> rfl
  | succ n ih =>
    obtain ⟨⟨visits, result⟩, after, w₁, hrun, hselects, hprobes, hafter⟩ :=
      s.select_round probe r metered w
    cases result with
    | error e =>
      refine ⟨{ shared := after, events := Round.events r ⟨visits, .error e⟩, failure := some e },
        [⟨visits, .error e⟩], w₁, ?_, Series.follows_failed hselects after, ?_, ?_⟩
      · simp [selectUntil, hrun, Call.result?]
      · simpa using hprobes
      · rw [hafter, tally_record_advance]
    | ok x =>
      obtain ⟨series, rounds, w', hrest, hfollows, hprobes', htally⟩ := ih after w₁
      have hcursor : after.cursors.value r.profile = s.cursors.value r.profile + 1 := by
        rw [hafter, cursors_record, value_cursors_advance]
      rw [hcursor] at hfollows
      refine ⟨series.precededBy (Round.events r ⟨visits, .ok x⟩) x, ⟨visits, .ok x⟩ :: rounds, w',
        ?_, hfollows.precededBy hselects, ?_, ?_⟩
      · simp [selectUntil, hrun, Call.result?, hrest]
      · simp [hprobes, hprobes']
      · rw [Series.precededBy, htally, hafter, ← record_append, tally_record_advance]

end Shared

namespace Series

variable {r : Request} {cursor : UInt64} {n : Nat} {rounds : List Round} {series : Series}

/-- A change that no visit makes, but only the end of a selection, is made as often in a series as
rounds end with it. -/
theorem count_writes_events {write : Tally.Write} (h : ∀ v : Visit, write ∉ v.event.writes)
    (rounds : List Round) :
    ((rounds.flatMap (Round.events r)).flatMap Event.writes).count write =
      (rounds.map Round.result).countP fun result => write ∈ (Call.ended result).writes := by
  have hclosing (result : Except NoLiveHost Selected) :
      (r.closing result).writes = (Call.ended result).writes := by
    cases result <;> rfl
  induction rounds with
  | nil => rfl
  | cons round rounds ih =>
    have hvisits : ((round.visits.map Visit.event).flatMap Event.writes).count write = 0 := by
      rw [List.count_eq_zero, List.flatMap_map, List.mem_flatMap]
      rintro ⟨v, -, hv⟩
      exact h v hv
    simp only [List.flatMap_cons, List.map_cons, List.flatMap_append, List.count_append, ih,
      Round.events, List.flatMap_nil, hvisits, List.append_nil, Nat.zero_add, List.countP_cons,
      hclosing, ((Call.ended round.result).nodup_writes).count]
    simp [Nat.add_comm]

theorem not_mem_writes_visit {write : Tally.Write} (h : write = .selections ∨ write = .failed ∨
    ∃ host, write = .selected host) (v : Visit) : write ∉ v.event.writes := by
  obtain ⟨stop, _ | a⟩ := v
  · exact List.not_mem_nil
  · simp only [Visit.event, Event.writes, List.mem_cons, List.not_mem_nil, or_false]
    grind

theorem countP_succeeded (series : Series) :
    (series.results.countP fun x => (Call.ended x).succeeded) = series.selected.length := by
  simp [results, List.countP_map, Function.comp_def, Call.succeeded]

theorem countP_failed (series : Series) :
    (series.results.countP fun x => (Call.ended x).failed) =
      if series.failure.isSome then 1 else 0 := by
  cases hf : series.failure <;> simp [results, hf, List.countP_map, Function.comp_def, Call.failed]

theorem countP_returned (series : Series) (host : String) :
    (series.results.countP fun x => (Call.ended x).returned host) =
      (series.selected.map Selected.host).count host := by
  simp [results, List.count, List.countP_map, Function.comp_def, Call.returned, beq_eq_decide]

structure Counts (series : Series) : Prop where
  selections : series.shared.tally.selections.toNat = series.selected.length
  failed : series.shared.tally.failed.toNat = if series.failure.isSome then 1 else 0
  selected : ∀ host, (series.shared.tally.host host).selected.toNat =
    (series.selected.map Selected.host).count host

theorem Follows.counts (h : series.Follows r cursor n rounds) (hn : n < UInt64.size)
    (ht : series.shared.tally = series.events.foldl Tally.observe {}) : series.Counts := by
  have hcounted := Tally.counted_foldl_write (series.events.flatMap Event.writes)
  rw [← Tally.foldl_observe, ← ht, h.events] at hcounted
  have hcount {write : Tally.Write} {k : Nat} (hw : write = .selections ∨ write = .failed ∨
      ∃ host, write = .selected host) (hk : k < UInt64.size)
      (hr : (series.results.countP fun result => write ∈ (Call.ended result).writes) = k) :
      (UInt64.ofNat (((rounds.flatMap (Round.events r)).flatMap Event.writes).count write)).toNat =
        k := by
    rw [count_writes_events (not_mem_writes_visit hw), h.ended, hr, UInt64.toNat_ofNat_of_lt' hk]
  have hselected : series.selected.length < UInt64.size := h.length_le.trans_lt hn
  constructor
  · rw [hcounted.selections]
    apply hcount (.inl rfl) hselected
    simp [Call.mem_writes_iff, countP_succeeded]
  · have hfailure : (if series.failure.isSome then 1 else 0) < UInt64.size := by
      split <;> decide
    rw [hcounted.failed]
    apply hcount (.inr (.inl rfl)) hfailure
    simp [Call.mem_writes_iff, countP_failed]
  · intro host
    have hhost : (series.selected.map Selected.host).count host < UInt64.size := by
      apply List.count_le_length.trans_lt
      simpa using hselected
    rw [hcounted.selected]
    apply hcount (.inr (.inr ⟨host, rfl⟩)) hhost
    simp [Call.mem_writes_iff, countP_returned]

end Series
end HostRotation
