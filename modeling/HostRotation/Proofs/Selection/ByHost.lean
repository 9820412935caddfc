import HostRotation.Proofs.Selection.Walk
import HostRotation.Proofs.Tally.Commuting

namespace HostRotation

/-- A probe finds every host as it is. -/
def FindsBy {σ : Type} (live : String → Liveness) (probe : Stop → StateM σ Answer) : Prop :=
  ∀ stop w, ∃ a w', (probe stop).run w = pure (a, w') ∧ a.check.liveness = live stop.host

namespace Request

variable (r : Request) (live : String → Liveness)

def plainAnswer (host : String) : Answer where
  check := { liveness := live host }

/-- What a walk over the stops ahead does when every host is found as it is. -/
def fate (ahead : List Stop) : List Event × Call :=
  Id.run (r.walk (fun _ stop => pure (some (plainAnswer live stop.host))) ahead)

theorem findsBy_plainAnswer {σ : Type} :
    FindsBy live fun stop => (pure (plainAnswer live stop.host) : StateM σ Answer) :=
  fun stop w => ⟨plainAnswer live stop.host, w, rfl, rfl⟩

@[simp] theorem fate_nil :
    r.fate live [] =
      ([.exhausted r.profile r.config.noLiveHost], .ended (.error r.config.noLiveHost)) := by
  simp [fate]

variable {r live} {stop : Stop} (ahead : List Stop)

theorem fate_cons_excluded (hx : r.excludes stop.host = true) :
    r.fate live (stop :: ahead) =
      (.skipped stop.host :: (r.fate live ahead).1, (r.fate live ahead).2) := by
  simp [fate, walk_cons_excluded r _ hx]

theorem fate_cons_alive (hx : r.excludes stop.host = false) (hl : live stop.host = .alive) :
    r.fate live (stop :: ahead) =
      ([.probed stop.host (plainAnswer live stop.host),
        .selected r.profile ⟨stop.host, stop.index⟩], .ended (.ok ⟨stop.host, stop.index⟩)) := by
  simp [fate, walk_cons_probed r _ hx, plainAnswer, hl, Liveness.isAlive]

theorem fate_cons_dead (hx : r.excludes stop.host = false) (hl : live stop.host = .dead) :
    r.fate live (stop :: ahead) =
      (.probed stop.host (plainAnswer live stop.host) :: (r.fate live ahead).1,
        (r.fate live ahead).2) := by
  simp [fate, walk_cons_probed r _ hx, plainAnswer, hl, Liveness.isAlive]

/-- But for latencies and log entries, a walk with any probe that finds every host as it is has this
fate. -/
theorem walk_eq_fate {σ : Type} {probe : Request → Stop → StateM σ Answer}
    (hp : FindsBy live (probe r)) (w : σ) :
    ∃ events w', (r.walk (fun r stop => some <$> probe r stop) ahead).run w =
        pure ((events, (r.fate live ahead).2), w') ∧
      events.map Event.bare = (r.fate live ahead).1 := by
  induction ahead generalizing w with
  | nil => exact ⟨[.exhausted r.profile r.config.noLiveHost], w, by simp, by simp [Event.bare]⟩
  | cons stop ahead ih =>
    cases hx : r.excludes stop.host with
    | true =>
      obtain ⟨events, w', hrun, hbare⟩ := ih w
      refine ⟨.skipped stop.host :: events, w', ?_, ?_⟩
      · simp [walk_cons_excluded r _ hx, fate_cons_excluded ahead hx, hrun]
      · simp [fate_cons_excluded ahead hx, hbare, Event.bare]
    | false =>
      obtain ⟨a, w₁, hprobe, ha⟩ := hp stop w
      cases hl : live stop.host with
      | alive =>
        refine ⟨[.probed stop.host a, .selected r.profile ⟨stop.host, stop.index⟩], w₁, ?_, ?_⟩
        · simp [walk_cons_probed r _ hx, fate_cons_alive ahead hx hl, hprobe, ha, hl,
            Liveness.isAlive]
        · simp [fate_cons_alive ahead hx hl, Event.bare, plainAnswer, ha]
      | dead =>
        obtain ⟨events, w', hrun, hbare⟩ := ih w₁
        refine ⟨.probed stop.host a :: events, w', ?_, ?_⟩
        · simp [walk_cons_probed r _ hx, fate_cons_dead ahead hx hl, hprobe, ha, hl,
            Liveness.isAlive, hrun]
        · simp [fate_cons_dead ahead hx hl, Event.bare, plainAnswer, ha, hbare]

def outcome (r : Request) (live : String → Liveness) (cursor : UInt64) : List Event × Call :=
  r.fate live (r.config.stops cursor)

end Request

namespace Shared

open Request

variable {σ : Type} {live : String → Liveness} {r : Request}
  {probe : Request → Stop → StateM σ Answer}

theorem with_cursors_record (s : Shared) (metered : Bool) (events : List Event) (c : Cursors) :
    { s.record metered events with cursors := c } =
      { s with cursors := c }.record metered events := by
  cases metered <;> rfl

theorem selectTimes_eq_outcomes (hp : FindsBy live (probe r)) (s : Shared) (metered : Bool)
    (k : Nat) (w : σ) :
    ∃ events w',
      (s.selectTimes metered (fun r stop => some <$> probe r stop) r k).run w =
        pure (((s.cursors.drawMany r.profile k).1.map fun v => (r.outcome live v).2,
          { s with cursors := (s.cursors.drawMany r.profile k).2 }.record metered events), w') ∧
      events.map Event.bare =
        (s.cursors.drawMany r.profile k).1.flatMap fun v => (r.outcome live v).1 := by
  induction k generalizing s w with
  | zero => exact ⟨[], w, by simp [selectTimes, Cursors.drawMany, record], rfl⟩
  | succ k ih =>
    obtain ⟨first, w₁, hfirst, hbare⟩ :=
      walk_eq_fate (r.config.stops (s.cursors.value r.profile)) hp w
    obtain ⟨rest, w', hrest, hbares⟩ := ih ((s.advance r.profile).record metered first) w₁
    rw [cursors_record, with_cursors_record] at hrest
    rw [cursors_record] at hbares
    refine ⟨first ++ rest, w', ?_, ?_⟩
    · simp [selectTimes, select_eq_walk, hfirst, hrest, Cursors.drawMany, record_append]
      rfl
    · rw [List.map_append, hbare, hbares]
      rfl

end Shared
end HostRotation
