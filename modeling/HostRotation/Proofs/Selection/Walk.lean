import HostRotation.Selection.Shared

namespace HostRotation

theorem exists_run {σ α : Type} (x : StateM σ α) (w : σ) : ∃ a w', x.run w = pure (a, w') :=
  ⟨_, _, rfl⟩

namespace Request

variable {m : Type → Type} [Monad m]

def probeBy (p : Probe) (out : Surroundings m) (r : Request) (stop : Stop) : m (Option Answer) :=
  some <$> p.answer out stop.host r.config.checkTime

theorem probe_eq_probeBy (out : Surroundings m) :
    Request.probe out = fun r => probeBy (.ofConfig r.config) out r :=
  rfl

/-- The walk over the stops ahead, up to its end or to a probe without an answer. -/
def walk (r : Request) (probe : Request → Stop → m (Option Answer)) (ahead : List Stop) :
    m (List Event × Call) := do
  let (events, last) ← (r.proceed ahead).2.run probe
  return ((r.proceed ahead).1 ++ events, last)

variable [LawfulMonad m] (r : Request) (probe : Request → Stop → m (Option Answer))

@[simp] theorem walk_nil :
    r.walk probe [] = pure ([.exhausted r.profile r.config.noLiveHost],
      .ended (.error r.config.noLiveHost)) := by
  simp [walk, proceed, Call.run]

theorem walk_cons_excluded {stop : Stop} (h : r.excludes stop.host = true) (ahead : List Stop) :
    r.walk probe (stop :: ahead) =
      (fun p => (.skipped stop.host :: p.1, p.2)) <$> r.walk probe ahead := by
  simp [walk, proceed, h]

theorem walk_cons_probed {stop : Stop} (h : r.excludes stop.host = false) (ahead : List Stop) :
    r.walk probe (stop :: ahead) = probe r stop >>= fun
      | none => pure ([], .pending r stop (Thunk.pure ahead))
      | some a =>
        if a.check.liveness.isAlive then
          pure ([.probed stop.host a, .selected r.profile ⟨stop.host, stop.index⟩],
            .ended (.ok ⟨stop.host, stop.index⟩))
        else (fun p => (.probed stop.host a :: p.1, p.2)) <$> r.walk probe ahead := by
  have hget : (Thunk.pure ahead).get = ahead := rfl
  simp only [walk, proceed, h, Bool.false_eq_true, if_false, Call.run, bind_assoc, List.nil_append]
  congr 1
  funext o
  cases o with
  | none => simp
  | some a =>
    cases ha : a.check.liveness.isAlive <;> simp [Call.answered, ha, Call.run, hget]

end Request

namespace Shared

def advance (s : Shared) (profile : String) : Shared :=
  { s with cursors := (s.cursors.draw profile).2 }

theorem peek_cursors_advance (s : Shared) (p q : String) :
    (s.advance p).cursors.peek q =
      if q = p then some (s.cursors.value p + 1) else s.cursors.peek q := by
  rw [advance, Cursors.peek_draw]
  simp only [eq_comm]

@[simp] theorem cursors_record (s : Shared) (metered : Bool) (events : List Event) :
    (s.record metered events).cursors = s.cursors := by
  cases metered <;> rfl

theorem record_append (s : Shared) (metered : Bool) (events more : List Event) :
    s.record metered (events ++ more) = (s.record metered events).record metered more := by
  cases metered <;> simp [record]

theorem select_eq_walk {m : Type → Type} [Monad m] [LawfulMonad m] (s : Shared) (metered : Bool)
    (probe : Request → Stop → m (Option Answer)) (r : Request) :
    s.select metered probe r =
      (fun p => (p.1, p.2, (s.advance r.profile).record metered p.1)) <$>
        r.walk probe (r.config.stops (s.cursors.value r.profile)) := by
  simp [select, begin, Request.start_eq_proceed, Request.walk, record_append, Cursors.draw, advance]

end Shared
end HostRotation
