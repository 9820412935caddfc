import HostRotation.Proofs.Selection.Positions
import HostRotation.Proofs.Selection.Walk

namespace HostRotation

/-- A stop of a walk, with the answer of its probe unless it was skipped. -/
structure Visit where
  stop : Stop
  answer : Option Answer
  deriving DecidableEq

namespace Visit

def found (v : Visit) : Option Liveness :=
  v.answer.map (·.check.liveness)

def event (v : Visit) : Event :=
  match v.answer with
  | none => .skipped v.stop.host
  | some a => .probed v.stop.host a

def probed (visits : List Visit) : List Stop :=
  (visits.filter (·.answer.isSome)).map Visit.stop

@[simp] theorem probed_nil : probed [] = [] := rfl

@[simp] theorem probed_cons_none (stop : Stop) (visits : List Visit) :
    probed (⟨stop, none⟩ :: visits) = probed visits := rfl

@[simp] theorem probed_cons_some (stop : Stop) (a : Answer) (visits : List Visit) :
    probed (⟨stop, some a⟩ :: visits) = stop :: probed visits := rfl

end Visit

namespace Request

def closing (r : Request) : Except NoLiveHost Selected → Event
  | .ok x => .selected r.profile x
  | .error e => .exhausted r.profile e

theorem excludes_iff (r : Request) (host : String) :
    r.excludes host = true ↔ r.exclude = some host := by
  simp [excludes]

/-- How the visits of a walk over the stops ahead come about, and what its result is. -/
structure Walked (r : Request) (ahead : List Stop) (visits : List Visit)
    (result : Except NoLiveHost Selected) : Prop where
  visited : visits.map Visit.stop <+: ahead
  skipped : ∀ v ∈ visits, v.found = none ↔ r.exclude = some v.stop.host
  goes_on : ∀ v ∈ visits.dropLast, v.found ≠ some .alive
  ending :
    (∃ v, visits.getLast? = some v ∧ v.found = some .alive ∧
      result = .ok ⟨v.stop.host, v.stop.index⟩) ∨
    ((∀ v ∈ visits, v.found ≠ some .alive) ∧ visits.map Visit.stop = ahead ∧
      result = .error r.config.noLiveHost)

namespace Walked

variable {r : Request} {stop : Stop} {ahead : List Stop} {visits : List Visit}
  {result : Except NoLiveHost Selected}

theorem nil : Walked r [] [] (.error r.config.noLiveHost) where
  visited := List.nil_prefix
  skipped := nofun
  goes_on := nofun
  ending := .inr ⟨nofun, rfl, rfl⟩

theorem alive {a : Answer} (hx : r.exclude ≠ some stop.host) (ha : a.check.liveness = .alive) :
    Walked r (stop :: ahead) [⟨stop, some a⟩] (.ok ⟨stop.host, stop.index⟩) where
  visited := by simp
  skipped := by simpa [Visit.found] using hx
  goes_on := nofun
  ending := .inl ⟨_, rfl, by simp [Visit.found, ha], rfl⟩

theorem cons (h : Walked r ahead visits result) {answer : Option Answer}
    (hs : (Visit.mk stop answer).found = none ↔ r.exclude = some stop.host)
    (hd : (Visit.mk stop answer).found ≠ some .alive) :
    Walked r (stop :: ahead) (⟨stop, answer⟩ :: visits) result where
  visited := by simpa using h.visited
  skipped := by simpa using ⟨hs, h.skipped⟩
  goes_on := by
    intro v hv
    cases visits with
    | nil => cases hv
    | cons u us =>
      rcases List.mem_cons.1 hv with rfl | hv
      · exact hd
      · exact h.goes_on v hv
  ending := by
    rcases h.ending with ⟨v, hl, hv, hr⟩ | ⟨hv, hm, hr⟩
    · refine .inl ⟨v, ?_, hv, hr⟩
      rw [List.getLast?_cons, hl]
      rfl
    · refine .inr ⟨?_, by simpa using hm, hr⟩
      simpa using ⟨hd, hv⟩

end Walked

/-- A walk with a probe that always answers asks for exactly the answers of its visits. -/
theorem walk_visits {σ : Type} (r : Request) (probe : Request → Stop → StateM σ Answer)
    (ahead : List Stop) (w : σ) :
    ∃ visits result w',
      (r.walk (fun r stop => some <$> probe r stop) ahead).run w =
        pure ((visits.map Visit.event ++ [r.closing result], .ended result), w') ∧
      ((Visit.probed visits).mapM (probe r)).run w = pure (visits.filterMap Visit.answer, w') ∧
      Walked r ahead visits result := by
  induction ahead generalizing w with
  | nil => exact ⟨[], .error r.config.noLiveHost, w, by simp [closing], by simp, .nil⟩
  | cons stop ahead ih =>
    cases hx : r.excludes stop.host with
    | true =>
      obtain ⟨visits, result, w', hw, hp, h⟩ := ih w
      have hs : r.exclude = some stop.host := (r.excludes_iff _).1 hx
      refine ⟨⟨stop, none⟩ :: visits, result, w', ?_, hp, h.cons (by simp [Visit.found, hs]) nofun⟩
      simp [walk_cons_excluded r _ hx, hw, Visit.event]
    | false =>
      have hs : r.exclude ≠ some stop.host := by simpa [excludes] using hx
      obtain ⟨a, w₁, hprobe⟩ := exists_run (probe r stop) w
      cases ha : a.check.liveness with
      | alive =>
        refine ⟨[⟨stop, some a⟩], .ok ⟨stop.host, stop.index⟩, w₁, ?_, ?_, .alive hs ha⟩
        · simp [walk_cons_probed r _ hx, hprobe, ha, Liveness.isAlive, Visit.event, closing]
        · simp [hprobe]
      | dead =>
        obtain ⟨visits, result, w', hw, hp, h⟩ := ih w₁
        refine ⟨⟨stop, some a⟩ :: visits, result, w', ?_, ?_,
          h.cons (by simp [Visit.found, hs]) (by simp [Visit.found, ha])⟩
        · simp [walk_cons_probed r _ hx, hprobe, ha, Liveness.isAlive, hw, Visit.event]
        · simp [hprobe, hp]

/-- What one selection with a cursor value does, in positions of the host list. -/
structure Selects (r : Request) (cursor : UInt64) (visits : List Visit)
    (result : Except NoLiveHost Selected) : Prop where
  order : visits.map (·.stop.index) <+:
    (List.range r.config.hosts.length).map fun k =>
      (cursor.toNat % r.config.hosts.length + k) % r.config.hosts.length
  host : ∀ v ∈ visits, r.config.hosts[v.stop.index]? = some v.stop.host
  skipped : ∀ v ∈ visits, v.found = none ↔ r.exclude = some v.stop.host
  goes_on : ∀ v ∈ visits.dropLast, v.found ≠ some .alive
  exhausts : (∀ v ∈ visits, v.found ≠ some .alive) → visits.length = r.config.hosts.length
  succeeds : (∃ x, result = .ok x) ↔ ∃ v ∈ visits, v.found = some .alive
  selected : ∀ x, result = .ok x →
    x.index < r.config.hosts.length ∧ r.config.hosts[x.index]? = some x.host ∧
      r.exclude ≠ some x.host ∧
      ∃ v, visits.getLast? = some v ∧ v.found = some .alive ∧ v.stop.index = x.index
  fails : (∃ e, result = .error e) ↔ ∀ i host, r.config.hosts[i]? = some host →
    r.exclude ≠ some host → ∃ v ∈ visits, v.stop.index = i ∧ v.found = some .dead
  unprobed : (∀ host ∈ r.config.hosts, r.exclude = some host) →
    Visit.probed visits = [] ∧ ∃ e, result = .error e
  error : ∀ e, result = .error e → e.hosts = r.config.hosts ∧ e.timeout = r.config.timeout ∧
    e.method = r.config.method

variable {r : Request} {cursor : UInt64} {visits : List Visit}
  {result : Except NoLiveHost Selected}

theorem Walked.eq_of_index_eq (h : Walked r (r.config.stops cursor) visits result) {u v : Visit}
    (hu : u ∈ visits) (hv : v ∈ visits) (hi : u.stop.index = v.stop.index) : u = v := by
  have hn : (visits.map (·.stop.index)).Nodup := by
    have hp := (h.visited.map Stop.index).sublist
    rw [Config.map_index_stops, List.map_map] at hp
    exact hp.nodup (r.config.nodup_positions cursor)
  exact List.inj_on_of_nodup_map hn hu hv hi

theorem Walked.host (h : Walked r (r.config.stops cursor) visits result) {v : Visit}
    (hv : v ∈ visits) : r.config.hosts[v.stop.index]? = some v.stop.host :=
  (r.config.mem_stops_iff cursor).1 (h.visited.subset (List.mem_map_of_mem hv))

theorem Walked.exclude_ne {ahead : List Stop} (h : Walked r ahead visits result) {v : Visit}
    (hv : v ∈ visits) (ha : v.found = some .alive) : r.exclude ≠ some v.stop.host := by
  rw [Ne, ← h.skipped v hv, ha]
  nofun

theorem Walked.selects (h : Walked r (r.config.stops cursor) visits result) :
    Selects r cursor visits result where
  order := by
    have hp := h.visited.map Stop.index
    rwa [Config.map_index_stops, List.map_map] at hp
  host := fun v hv => h.host hv
  skipped := h.skipped
  goes_on := h.goes_on
  exhausts := by
    intro hdead
    rcases h.ending with ⟨v, hl, hv, -⟩ | ⟨-, hm, -⟩
    · exact absurd hv (hdead v (List.mem_of_getLast? hl))
    · simpa using congrArg List.length hm
  succeeds := by
    rcases h.ending with ⟨v, hl, hv, rfl⟩ | ⟨hv, hm, rfl⟩
    · have hmem := List.mem_of_getLast? hl
      exact ⟨fun _ => ⟨v, hmem, hv⟩, fun _ => ⟨_, rfl⟩⟩
    · exact ⟨nofun, fun ⟨v, hm, ha⟩ => absurd ha (hv v hm)⟩
  selected := by
    intro x hx
    rcases h.ending with ⟨v, hl, hv, rfl⟩ | ⟨hv, hm, rfl⟩
    · cases hx
      have hmem := List.mem_of_getLast? hl
      have hne := h.exclude_ne hmem hv
      have hh := h.host hmem
      exact ⟨(List.getElem?_eq_some_iff.1 hh).1, hh, hne, v, hl, hv, rfl⟩
    · cases hx
  fails := by
    rcases h.ending with ⟨v, hl, hv, rfl⟩ | ⟨hv, hm, rfl⟩
    · refine ⟨nofun, fun hall => ?_⟩
      -- the live host was found at a position that must have answered dead
      have hmem := List.mem_of_getLast? hl
      have hne := h.exclude_ne hmem hv
      obtain ⟨u, hu, hi, hd⟩ := hall _ _ (h.host hmem) hne
      rw [h.eq_of_index_eq hu hmem hi, hv] at hd
      cases hd
    · refine ⟨fun _ i host hi hne => ?_, fun _ => ⟨_, rfl⟩⟩
      have hs : (⟨i, host⟩ : Stop) ∈ visits.map Visit.stop :=
        hm ▸ (r.config.mem_stops_iff cursor).2 hi
      obtain ⟨u, hu, he⟩ := List.mem_map.1 hs
      refine ⟨u, hu, by rw [he], ?_⟩
      have hf : u.found ≠ none := by
        rw [Ne, h.skipped u hu, he]
        exact hne
      have ha := hv u hu
      match hl : u.found with
      | none => exact absurd hl hf
      | some .alive => exact absurd hl ha
      | some .dead => rfl
  unprobed := by
    intro hall
    have hskip : ∀ v ∈ visits, v.answer = none := by
      intro v hv
      have hf := (h.skipped v hv).2 (hall _ (List.mem_of_getElem? (h.host hv)))
      simpa [Visit.found] using hf
    refine ⟨?_, ?_⟩
    · rw [Visit.probed, List.filter_eq_nil_iff.2 (by simpa using hskip)]
      rfl
    · rcases h.ending with ⟨v, hl, hv, -⟩ | ⟨-, -, hr⟩
      · simp [Visit.found, hskip v (List.mem_of_getLast? hl)] at hv
      · exact ⟨_, hr⟩
  error := by
    intro e he
    rcases h.ending with ⟨v, hl, hv, rfl⟩ | ⟨hv, hm, rfl⟩
    · cases he
    · cases he
      exact ⟨rfl, rfl, rfl⟩

end Request

open Request in
/-- A selection rotates the host list to the cursor, filters out the excluded host, and finds the
first live host; it advances the cursor of its profile by one, however it ends. -/
theorem Shared.select_refines_rotation {σ : Type} (s : Shared) (metered : Bool) (r : Request)
    (probe : Request → Stop → StateM σ Answer) (w : σ) :
    ∃ visits result after w',
      (s.select metered (fun r stop => some <$> probe r stop) r).run w =
        pure ((visits.map Visit.event ++ [r.closing result], .ended result, after), w') ∧
      Selects r (s.cursors.value r.profile) visits result ∧
      ((Visit.probed visits).mapM (probe r)).run w = pure (visits.filterMap Visit.answer, w') ∧
      ((List.range r.config.hosts.length).map
        (r.config.position (s.cursors.value r.profile))).Perm (List.range r.config.hosts.length) ∧
      ∀ p, after.cursors.peek p =
        if p = r.profile then some (s.cursors.value r.profile + 1) else s.cursors.peek p := by
  obtain ⟨visits, result, w', hw, hp, h⟩ :=
    r.walk_visits probe (r.config.stops (s.cursors.value r.profile)) w
  refine ⟨visits, result,
    (s.advance r.profile).record metered (visits.map Visit.event ++ [r.closing result]), w', ?_,
    h.selects, hp, r.config.positions_perm _, fun p => ?_⟩
  · rw [select_eq_walk, StateT.run_map, hw]
    rfl
  · rw [cursors_record, peek_cursors_advance]

end HostRotation
