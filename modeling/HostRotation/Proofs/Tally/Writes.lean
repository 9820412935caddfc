import HostRotation.Selection.Walk

namespace HostRotation
namespace Tally

/-- A change of the tally that nothing can come in between of. -/
inductive Write where
  | selections
  | failed
  | probes
  | enter (host : String)
  | selected (host : String)
  | success (host : String)
  | failure (host : String)
  | latency (host : String) (l : UInt64)
  deriving DecidableEq, Repr

def Write.host? : Write → Option String
  | .enter h | .selected h | .success h | .failure h | .latency h _ => some h
  | _ => none

def write (t : Tally) : Write → Tally
  | .selections => { t with selections := t.selections + 1 }
  | .failed => t.addFailure
  | .probes => { t with probes := t.probes + 1 }
  | .enter h => t.updateHost h id
  | .selected h => t.updateHost h HostTally.addSelection
  | .success h => t.updateHost h fun x => { x with successes := x.successes + 1 }
  | .failure h => t.updateHost h fun x => { x with failures := x.failures + 1 }
  | .latency h l => t.updateHost h fun x => { x with latency := x.latency + l }

end Tally

/-- The changes that count an event, in order. A host is entered before its counts change. -/
def Event.writes : Event → List Tally.Write
  | .skipped _ => []
  | .probed h a =>
    [.probes, .enter h, if a.check.liveness.isAlive then .success h else .failure h,
      .latency h a.latency]
  | .selected _ s => [.selections, .enter s.host, .selected s.host]
  | .exhausted _ _ => [.failed]

inductive Record where
  | selection (host : String)
  | probe (host : String) (alive : Bool) (latency : UInt64)
  | failure
  deriving DecidableEq, Repr

namespace Record

def writes : Record → List Tally.Write
  | .selection h => [.selections, .enter h, .selected h]
  | .probe h alive l =>
    [.probes, .enter h, if alive then .success h else .failure h, .latency h l]
  | .failure => [.failed]

end Record

namespace Tally

def record (t : Tally) : Record → Tally
  | .selection h => t.addSelection h
  | .probe h alive l => t.addProbe h alive l
  | .failure => t.addFailure

@[simp] theorem host_updateHost (t : Tally) (h k : String) (f : HostTally → HostTally) :
    (t.updateHost h f).host k = if h = k then f (t.host h) else t.host k := by
  rw [host, getElem?_hosts_updateHost]
  split <;> rfl

theorem updateHost_updateHost (t : Tally) (h : String) (f g : HostTally → HostTally) :
    (t.updateHost h f).updateHost h g = t.updateHost h (g ∘ f) := by
  have hh : ((t.updateHost h f).updateHost h g).hosts = (t.updateHost h (g ∘ f)).hosts := by
    apply Std.ExtTreeMap.ext_getElem?
    intro k
    simp only [getElem?_hosts_updateHost, host_updateHost, if_true, Function.comp_apply]
    split <;> rfl
  simp only [updateHost] at hh ⊢
  rw [hh]

theorem record_eq_foldl_writes (t : Tally) (r : Record) : t.record r = r.writes.foldl write t := by
  cases r with
  | selection h =>
    simp only [record, Record.writes, addSelection, List.foldl_cons, List.foldl_nil, write,
      updateHost_updateHost]
    rfl
  | probe h alive l =>
    cases alive
    all_goals
      simp only [record, Record.writes, addProbe, Bool.false_eq_true, if_true, if_false,
        List.foldl_cons, List.foldl_nil, write, updateHost_updateHost]
      rfl
  | failure => rfl

/-- Making calls is making their changes one after the other. -/
theorem foldl_record (t : Tally) (records : List Record) :
    records.foldl record t = (records.flatMap Record.writes).foldl write t := by
  rw [List.foldl_flatMap]
  congr 1
  funext t r
  exact t.record_eq_foldl_writes r

theorem observe_eq_foldl_writes (t : Tally) (e : Event) : t.observe e = e.writes.foldl write t := by
  cases e with
  | skipped h => rfl
  | probed h a => exact t.record_eq_foldl_writes (.probe h a.check.liveness.isAlive a.latency)
  | selected p s => exact t.record_eq_foldl_writes (.selection s.host)
  | exhausted p e => rfl

theorem foldl_observe (t : Tally) (events : List Event) :
    events.foldl observe t = (events.flatMap Event.writes).foldl write t := by
  rw [List.foldl_flatMap]
  congr 1
  funext t e
  exact t.observe_eq_foldl_writes e

/-- The count that a change advances by one. -/
def Write.count? : Write → Option (Tally → UInt64)
  | .selections => some fun t => t.selections
  | .failed => some fun t => t.failed
  | .probes => some fun t => t.probes
  | .selected h => some fun t => (t.host h).selected
  | .success h => some fun t => (t.host h).successes
  | .failure h => some fun t => (t.host h).failures
  | .enter _ | .latency _ _ => none

theorem count_write {w : Write} {count : Tally → UInt64} (hc : w.count? = some count) (t : Tally)
    (w' : Write) : count (t.write w') = count t + if w' = w then 1 else 0 := by
  cases w
  case enter | latency => cases hc
  case selections | failed | probes =>
    obtain rfl := Option.some.inj hc
    cases w' <;> simp [write, updateHost, addFailure]
  case selected | success | failure =>
    obtain rfl := Option.some.inj hc
    cases w' <;> grind [write, addFailure, host, host_updateHost, HostTally.addSelection]

theorem count_foldl_write {w : Write} {count : Tally → UInt64} (hc : w.count? = some count)
    (t : Tally) (ws : List Write) : count (ws.foldl write t) = count t + .ofNat (ws.count w) := by
  induction ws generalizing t with
  | nil => simp
  | cons w' ws ih =>
    rw [List.foldl_cons, ih, count_write hc, List.count_cons]
    by_cases hw : w' = w
    · simp [hw, UInt64.ofNat_add, UInt64.add_assoc, UInt64.add_comm 1]
    · simp [hw]

theorem isSome_hosts_foldl_write (t : Tally) (ws : List Write) (h : String) :
    (ws.foldl write t).hosts[h]?.isSome ↔ t.hosts[h]?.isSome ∨ ∃ w ∈ ws, w.host? = some h := by
  induction ws generalizing t with
  | nil => simp
  | cons w ws ih =>
    have hw : (t.write w).hosts[h]?.isSome ↔ t.hosts[h]?.isSome ∨ w.host? = some h := by
      cases w
      all_goals simp only [write, Write.host?, addFailure, getElem?_hosts_updateHost]
      all_goals grind
    rw [List.foldl_cons, ih, hw, or_assoc]
    simp

/-- The counts of a tally in which changes were made, and nothing else. -/
structure Counted (t : Tally) (ws : List Write) : Prop where
  selections : t.selections = .ofNat (ws.count .selections)
  failed : t.failed = .ofNat (ws.count .failed)
  probes : t.probes = .ofNat (ws.count .probes)
  selected : ∀ h, (t.host h).selected = .ofNat (ws.count (.selected h))
  successes : ∀ h, (t.host h).successes = .ofNat (ws.count (.success h))
  failures : ∀ h, (t.host h).failures = .ofNat (ws.count (.failure h))
  entry : ∀ h, t.hosts[h]?.isSome ↔ ∃ w ∈ ws, w.host? = some h

theorem counted_foldl_write (ws : List Write) : Counted (ws.foldl write {}) ws := by
  have hc {w : Write} {count : Tally → UInt64} (hw : w.count? = some count)
      (h0 : count {} = 0) : count (ws.foldl write {}) = .ofNat (ws.count w) := by
    rw [count_foldl_write hw, h0, UInt64.zero_add]
  have h0 (h : String) : host {} h = {} := by simp [host]
  exact {
    selections := hc (w := .selections) rfl rfl
    failed := hc (w := .failed) rfl rfl
    probes := hc (w := .probes) rfl rfl
    selected := fun h => hc (w := .selected h) rfl (by rw [h0])
    successes := fun h => hc (w := .success h) rfl (by rw [h0])
    failures := fun h => hc (w := .failure h) rfl (by rw [h0])
    entry := fun h => by
      rw [isSome_hosts_foldl_write]
      simp }

end Tally
end HostRotation
