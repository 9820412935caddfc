import HostRotation.Selection.Shared

namespace HostRotation

/-- What a series of selections leaves: the shared state, all events, the hosts that were selected,
and the error that ended it early. -/
structure Series where
  shared : Shared
  events : List Event := []
  selected : List Selected := []
  failure : Option NoLiveHost := none
  deriving DecidableEq

namespace Series

def precededBy (rest : Series) (events : List Event) (x : Selected) : Series :=
  { rest with events := events ++ rest.events, selected := x :: rest.selected }

end Series

def Shared.selectUntil {m : Type → Type} [Monad m] (s : Shared) (metered : Bool)
    (probe : Request → Stop → m (Option Answer)) (r : Request) : Nat → m Series
  | 0 => pure { shared := s }
  | n + 1 => do
    let (events, call, s) ← s.select metered probe r
    match call.result? with
    | some (.ok x) => return (← s.selectUntil metered probe r n).precededBy events x
    | some (.error e) => return { shared := s, events, failure := some e }
    | none => return { shared := s, events }

end HostRotation
