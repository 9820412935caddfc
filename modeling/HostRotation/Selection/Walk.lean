import HostRotation.Fault
import HostRotation.Probe.Basic
import HostRotation.Tally

namespace HostRotation

structure Request where
  config : Config
  profile : String
  exclude : Option String := none
  deriving DecidableEq

structure Selected where
  host : String
  index : Nat
  deriving DecidableEq, Repr

structure Stop where
  index : Nat
  host : String
  deriving DecidableEq, Repr

inductive Event where
  | skipped (host : String)
  | probed (host : String) (answer : Answer)
  | selected (profile : String) (s : Selected)
  | exhausted (profile : String) (e : NoLiveHost)
  deriving DecidableEq, Repr

namespace Config

theorem length_hosts_pos (c : Config) : 0 < c.hosts.length :=
  List.length_pos_iff.2 c.hosts_ne_nil

/-- The position at an offset from the one that a cursor value names. -/
def position (c : Config) (cursor : UInt64) (offset : Nat) : Nat :=
  (cursor.toNat % c.hosts.length + offset) % c.hosts.length

theorem position_lt (c : Config) (cursor : UInt64) (offset : Nat) :
    c.position cursor offset < c.hosts.length :=
  Nat.mod_lt _ c.length_hosts_pos

def stop (c : Config) (cursor : UInt64) (offset : Nat) : Stop :=
  have := c.position_lt cursor offset
  { index := c.position cursor offset, host := c.hosts[c.position cursor offset] }

theorem stop_eq {c : Config} {cursor : UInt64} {offset i : Nat} (hi : i < c.hosts.length)
    (h : c.position cursor offset = i) :
    c.stop cursor offset = { index := i, host := c.hosts[i] } := by
  subst h
  rfl

/-- Every position once, in the order in which a selection with this cursor value visits them: from
the one that the cursor names to the last, then from the first. -/
def stops (c : Config) (cursor : UInt64) : List Stop :=
  let all := c.hosts.mapIdx Stop.mk
  let first := cursor.toNat % c.hosts.length
  all.drop first ++ all.take first

@[simp] theorem length_stops (c : Config) (cursor : UInt64) :
    (c.stops cursor).length = c.hosts.length := by
  have h := Nat.mod_lt cursor.toNat c.length_hosts_pos
  simp only [stops, List.length_append, List.length_drop, List.length_take, List.length_mapIdx]
  omega

theorem stops_eq_map_range (c : Config) (cursor : UInt64) :
    c.stops cursor = (List.range c.hosts.length).map (c.stop cursor) := by
  have hf := Nat.mod_lt cursor.toNat c.length_hosts_pos
  apply List.ext_getElem
  · simp
  · intro k hk _
    rw [length_stops] at hk
    rw [List.getElem_map, List.getElem_range]
    by_cases hw : k < c.hosts.length - cursor.toNat % c.hosts.length
    · have hi : cursor.toNat % c.hosts.length + k < c.hosts.length := by omega
      rw [stop_eq hi (Nat.mod_eq_of_lt hi)]
      simp [stops, hw]
    · have hi : k - (c.hosts.length - cursor.toNat % c.hosts.length) < c.hosts.length := by omega
      have hp : c.position cursor k = k - (c.hosts.length - cursor.toNat % c.hosts.length) := by
        rw [position, Nat.mod_eq_sub_mod (by omega), Nat.mod_eq_of_lt (by omega)]
        omega
      rw [stop_eq hi hp]
      simp only [stops]
      rw [List.getElem_append_right (by simpa using hw)]
      simp

theorem stops_eq_cons (c : Config) (cursor : UInt64) :
    c.stops cursor = c.stop cursor 0 :: (c.stops cursor).tail := by
  have h := c.length_hosts_pos
  rw [stops_eq_map_range]
  cases hn : c.hosts.length with
  | zero => omega
  | succ n => simp [List.range_succ_eq_map]

def noLiveHost (c : Config) : NoLiveHost :=
  { hosts := c.hosts, timeout := c.timeout, method := c.method }

end Config

/-- A selection between two steps: it waits for the answer of a probe, or it has ended. -/
inductive Call where
  | pending (r : Request) (stop : Stop) (ahead : Thunk (List Stop))
  | ended (result : Except NoLiveHost Selected)

namespace Request

def excludes (r : Request) (host : String) : Bool :=
  r.exclude = some host

/-- Goes on to the next stop that is to be probed, or to the end of the walk. -/
def proceed (r : Request) : List Stop → List Event × Call
  | [] =>
    ([.exhausted r.profile r.config.noLiveHost], .ended (.error r.config.noLiveHost))
  | s :: ahead =>
    if r.excludes s.host then (.skipped s.host :: (proceed r ahead).1, (proceed r ahead).2)
    else ([], .pending r s (Thunk.pure ahead))

/-- Starts a selection that drew a cursor value. The stops after the first are worked out when they
are needed. -/
def start (r : Request) (cursor : UInt64) : List Event × Call :=
  let first := r.config.stop cursor 0
  if r.excludes first.host then r.proceed (r.config.stops cursor)
  else ([], .pending r first (Thunk.mk fun _ => (r.config.stops cursor).tail))

theorem start_eq_proceed (r : Request) (cursor : UInt64) :
    r.start cursor = r.proceed (r.config.stops cursor) := by
  rw [start]
  split
  · rfl
  · next h =>
    rw [r.config.stops_eq_cons cursor, proceed, if_neg h]
    rfl

end Request

namespace Call

def remaining : Call → Nat
  | .pending _ _ ahead => ahead.get.length + 1
  | .ended _ => 0

theorem remaining_proceed (r : Request) (ahead : List Stop) :
    (r.proceed ahead).2.remaining ≤ ahead.length := by
  induction ahead with
  | nil => exact Nat.le_refl 0
  | cons s ahead ih =>
    rw [Request.proceed]
    split
    · exact Nat.le_succ_of_le ih
    · exact Nat.le_refl _

def result? : Call → Option (Except NoLiveHost Selected)
  | .pending .. => none
  | .ended result => some result

def waitingAt? : Call → Option (Request × Stop)
  | .pending r stop _ => some (r, stop)
  | .ended _ => none

def answered (r : Request) (stop : Stop) (ahead : Thunk (List Stop)) (a : Answer) :
    List Event × Call :=
  if a.check.liveness.isAlive then
    let s : Selected := { host := stop.host, index := stop.index }
    ([.probed stop.host a, .selected r.profile s], .ended (.ok s))
  else
    (.probed stop.host a :: (r.proceed ahead.get).1, (r.proceed ahead.get).2)

theorem remaining_answered (r : Request) (stop : Stop) (ahead : Thunk (List Stop)) (a : Answer) :
    (answered r stop ahead a).2.remaining ≤ ahead.get.length := by
  rw [answered]
  split
  · exact Nat.zero_le _
  · exact remaining_proceed r ahead.get

/-- Goes on with the answer that a call waits for; a call that has ended stays as it is. -/
def answer (c : Call) (a : Answer) : List Event × Call :=
  match c with
  | .pending r stop ahead => answered r stop ahead a
  | .ended result => ([], .ended result)

/-- Drives a call to its end, one probe after the other. A probe without an answer leaves the call
where it is. -/
def run {m : Type → Type} [Monad m] (probe : Request → Stop → m (Option Answer)) (c : Call) :
    m (List Event × Call) :=
  match c with
  | .ended result => pure ([], .ended result)
  | .pending r stop ahead => do
    match ← probe r stop with
    | none => return ([], .pending r stop ahead)
    | some a =>
      have := remaining_answered r stop ahead a
      let (events, last) ← run probe (answered r stop ahead a).2
      return ((answered r stop ahead a).1 ++ events, last)
termination_by c.remaining
decreasing_by exact Nat.lt_succ_of_le this

end Call

namespace Event

def entry (level : Log.Level) (message : String) : Log.Entry :=
  { level, source := .selection, message }

def entries : Event → List Log.Entry
  | .skipped host => [entry .debug ("Skipping excluded edge node '" ++ host ++ "'")]
  | .probed _ a => a.check.entries
  | .selected profile s =>
    [entry .debug ("Selected edge node '" ++ s.host ++ "' (index " ++ Text.numeral s.index
      ++ ") for profile '" ++ profile ++ "'")]
  | .exhausted profile e => [entry .warn ("Profile '" ++ profile ++ "': " ++ e.message)]

end Event

def Request.probe {m : Type → Type} [Monad m] (s : Surroundings m) (r : Request) (stop : Stop) :
    m (Option Answer) :=
  some <$> (Probe.ofConfig r.config).answer s stop.host r.config.checkTime

def Tally.observe (t : Tally) : Event → Tally
  | .skipped _ => t
  | .probed host a => t.addProbe host a.check.liveness.isAlive a.latency
  | .selected _ s => t.addSelection s.host
  | .exhausted _ _ => t.addFailure

end HostRotation
