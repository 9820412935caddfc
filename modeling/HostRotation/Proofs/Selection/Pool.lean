import Mathlib.Logic.Relation
import HostRotation.Proofs.Tally.Writes
import HostRotation.Selection.Shared

namespace HostRotation

structure Reply where
  host : String
  answer : Answer
  deriving DecidableEq

structure Task where
  request : Request
  call : Call
  /-- The changes of the tally that are left of the last step. -/
  unwritten : List Tally.Write := []
  dropped : Bool := false

namespace Task

def start (r : Request) (cursor : UInt64) : Task where
  request := r
  call := (r.start cursor).2
  unwritten := (r.start cursor).1.flatMap Event.writes

def answer (t : Task) (a : Answer) : Task :=
  { t with
    call := (t.call.answer a).2
    unwritten := (t.call.answer a).1.flatMap Event.writes }

end Task

structure Pool where
  shared : Shared
  tasks : List Task := []
  replies : List Reply := []

namespace Pool

def ofCursors (c : Cursors) : Pool where
  shared := { cursors := c }

/-- No selection is in the middle of a step. -/
def Quiet (p : Pool) : Prop :=
  ∀ t ∈ p.tasks, t.unwritten = []

/-- The steps of a pool. The task that takes one stands between the others. -/
inductive Step (p : Pool) : Pool → Prop where
  | start (r : Request) :
    Step p
      { p with
        shared := { p.shared with cursors := (p.shared.cursors.draw r.profile).2 }
        tasks := p.tasks ++ [.start r (p.shared.cursors.draw r.profile).1] }
  | reply {before after : List Task} {t : Task} {r : Request} {stop : Stop}
    {ahead : Thunk (List Stop)} (ht : p.tasks = before ++ t :: after)
    (hc : t.call = .pending r stop ahead) (hd : t.dropped = false) (hw : t.unwritten = [])
    (a : Answer) :
    Step p
      { p with
        tasks := before ++ t.answer a :: after
        replies := p.replies ++ [⟨stop.host, a⟩] }
  | write {before after : List Task} {t : Task} {w : Tally.Write} {ws : List Tally.Write}
    (ht : p.tasks = before ++ t :: after) (hw : t.unwritten = w :: ws) :
    Step p
      { p with
        shared := { p.shared with tally := p.shared.tally.write w }
        tasks := before ++ { t with unwritten := ws } :: after }
  | drop {before after : List Task} {t : Task} {r : Request} {stop : Stop}
    {ahead : Thunk (List Stop)} (ht : p.tasks = before ++ t :: after)
    (hc : t.call = .pending r stop ahead) (hw : t.unwritten = []) :
    Step p { p with tasks := before ++ { t with dropped := true } :: after }

abbrev Steps : Pool → Pool → Prop :=
  Relation.ReflTransGen Step

def Reachable (c : Cursors) (p : Pool) : Prop :=
  Steps (ofCursors c) p

theorem steps_written {before after : List Task} {t : Task} {p : Pool}
    (ht : p.tasks = before ++ t :: after) :
    Steps p
      { p with
        shared := { p.shared with tally := t.unwritten.foldl Tally.write p.shared.tally }
        tasks := before ++ { t with unwritten := [] } :: after } := by
  obtain ⟨r, call, ws, dropped⟩ := t
  induction ws generalizing p with
  | nil =>
    obtain ⟨⟨cursors, tally⟩, tasks, replies⟩ := p
    cases ht
    exact .refl
  | cons w ws ih =>
    have hs := Step.write ht rfl
    exact .head hs (ih rfl)

/-- A start with nothing in between is the start of a metered selection on shared state. -/
theorem steps_begin (p : Pool) (r : Request) :
    Steps p
      { p with
        shared := (p.shared.begin true r).2.2
        tasks := p.tasks ++ [{ request := r, call := (p.shared.begin true r).2.1 }] } := by
  have hw := steps_written (p := { p with
    shared := { p.shared with cursors := (p.shared.cursors.draw r.profile).2 }
    tasks := p.tasks ++ [.start r (p.shared.cursors.draw r.profile).1] }) rfl
  have hs := Relation.ReflTransGen.head (Step.start r) hw
  simpa only [Shared.begin, Shared.record, if_true, Tally.foldl_observe, Task.start] using hs

theorem steps_answered {p : Pool} {before after : List Task} {t : Task} {r : Request} {stop : Stop}
    {ahead : Thunk (List Stop)} (ht : p.tasks = before ++ t :: after)
    (hc : t.call = .pending r stop ahead) (hd : t.dropped = false) (hw : t.unwritten = [])
    (a : Answer) :
    Steps p
      { p with
        shared := p.shared.record true (Call.answered r stop ahead a).1
        tasks := before ++ { t with call := (Call.answered r stop ahead a).2 } :: after
        replies := p.replies ++ [⟨stop.host, a⟩] } := by
  have hs := Relation.ReflTransGen.head (Step.reply ht hc hd hw a) (steps_written rfl)
  simpa only [Shared.record, if_true, Tally.foldl_observe, Task.answer, Call.answer, hc, hw]
    using hs

end Pool
end HostRotation
