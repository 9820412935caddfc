import HostRotation.Selection.Shared

namespace HostRotation

structure Turn where
  number : Nat
  metered : Bool
  task : Request ⊕ Call

namespace Turn

def remaining (t : Turn) : Nat :=
  match t.task with
  | .inl r => r.config.hosts.length + 1
  | .inr call => call.remaining

def total (queue : List Turn) : Nat :=
  queue.foldr (fun t n => t.remaining + 1 + n) 0

@[simp] theorem total_cons (t : Turn) (queue : List Turn) :
    total (t :: queue) = t.remaining + 1 + total queue :=
  rfl

@[simp] theorem total_append (queue rest : List Turn) :
    total (queue ++ rest) = total queue + total rest := by
  induction queue with
  | nil => simp [total]
  | cons t queue ih => simp [ih, Nat.add_assoc]

end Turn

/-- What has come of the selections that take turns: the events and the started probes in their
order, and how each selection ended, by its number. -/
structure Outcome where
  shared : Shared
  events : Array Event := #[]
  started : Array (Request × Stop) := #[]
  ended : Array (Nat × Call) := #[]

namespace Outcome

def note (o : Outcome) (events : List Event) (call : Call) (shared : Shared) : Outcome :=
  { o with
    shared
    events := o.events ++ events
    started := o.started ++ call.waitingAt?.toList }

def finish (o : Outcome) (number : Nat) (call : Call) : Outcome :=
  { o with ended := o.ended.push (number, call) }

/-- Lets the selections of a queue take turns until all have ended. With its first turn a selection
starts; with each later one its probe is answered, and it goes on to its next probe or to its end.
One whose probe is not answered is dropped. -/
def drive {m : Type → Type} [Monad m] (probe : Request → Stop → m (Option Answer)) (o : Outcome)
    (queue : List Turn) : m Outcome :=
  match queue with
  | [] => pure o
  | { number, metered, task := .inl r } :: queue =>
    have := o.shared.remaining_begin metered r
    let first := o.shared.begin metered r
    let o := o.note first.1 first.2.1 first.2.2
    drive probe o (queue ++ [{ number, metered, task := .inr first.2.1 }])
  | { number, task := .inr (.ended result), .. } :: queue =>
    drive probe (o.finish number (.ended result)) queue
  | { number, metered, task := .inr (.pending r stop ahead) } :: queue => do
    match ← probe r stop with
    | none => drive probe (o.finish number (.pending r stop ahead)) queue
    | some a =>
      have := Call.remaining_answered r stop ahead a
      let next := Call.answered r stop ahead a
      let o := o.note next.1 next.2 (o.shared.record metered next.1)
      drive probe o (queue ++ [{ number, metered, task := .inr next.2 }])
termination_by Turn.total queue
decreasing_by
  all_goals simp only [Turn.total_cons, Turn.total_append, Turn.remaining, Call.remaining] at *
  all_goals simp [Turn.total]
  all_goals omega

end Outcome
end HostRotation
