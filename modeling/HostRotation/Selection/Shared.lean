import HostRotation.Cursors
import HostRotation.Selection.Walk

namespace HostRotation

structure Shared where
  cursors : Cursors := .empty
  tally : Tally := {}
  deriving DecidableEq

namespace Shared

/-- Counts events, when they are those of a metered selection. -/
def record (s : Shared) (metered : Bool) (events : List Event) : Shared :=
  if metered then { s with tally := events.foldl Tally.observe s.tally } else s

def begin (s : Shared) (metered : Bool) (r : Request) : List Event × Call × Shared :=
  let drawn := s.cursors.draw r.profile
  let first := r.start drawn.1
  (first.1, first.2, { s with cursors := drawn.2 }.record metered first.1)

theorem remaining_begin (s : Shared) (metered : Bool) (r : Request) :
    (s.begin metered r).2.1.remaining ≤ r.config.hosts.length := by
  simpa [begin, Request.start_eq_proceed] using
    Call.remaining_proceed r (r.config.stops (s.cursors.draw r.profile).1)

/-- Makes one selection from start to end, with no other in between. -/
def select {m : Type → Type} [Monad m] (s : Shared) (metered : Bool)
    (probe : Request → Stop → m (Option Answer)) (r : Request) :
    m (List Event × Call × Shared) := do
  let (events, call, s) := s.begin metered r
  let (more, last) ← call.run probe
  return (events ++ more, last, s.record metered more)

def selectTimes {m : Type → Type} [Monad m] (s : Shared) (metered : Bool)
    (probe : Request → Stop → m (Option Answer)) (r : Request) : Nat → m (List Call × Shared)
  | 0 => pure ([], s)
  | n + 1 => do
    let (_, call, s) ← s.select metered probe r
    let (calls, s) ← s.selectTimes metered probe r n
    return (call :: calls, s)

end Shared
end HostRotation
