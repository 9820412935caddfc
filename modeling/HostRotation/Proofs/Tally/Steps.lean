import HostRotation.Proofs.Tally.Commuting

namespace HostRotation

inductive Lookup where
  | pending
  | missed
  | found (entry : Nat)
  deriving DecidableEq, Repr

structure Recording where
  record : Record
  unwritten : List Tally.Write
  lookup : Lookup := .pending
  deriving DecidableEq, Repr

namespace Recording

def start (r : Record) : Recording where
  record := r
  unwritten := r.writes

def remaining (x : Recording) : Nat :=
  2 * x.unwritten.length - if x.lookup = .missed then 1 else 0

end Recording

/-- What a reading has of an entry that it did not read to its end. -/
inductive Glimpse where
  | successes (n : UInt64)
  | failures (successes n : UInt64)
  | meanLatency (successes failures n : UInt64)
  deriving DecidableEq, Repr

inductive Reading where
  | waiting
  /-- Holds the lock, with entries to copy and hosts that were copied. -/
  | copying (todo : List (String × Nat)) (hosts : Table HostMetrics)
  /-- Holds the lock, in the middle of an entry. -/
  | inEntry (host : String) (entry : Nat) (seen : Glimpse) (todo : List (String × Nat))
    (hosts : Table HostMetrics)
  | copied (s : Snapshot)
  | selectionsRead (s : Snapshot)
  | failedRead (s : Snapshot)
  | probesRead (s : Snapshot)
  | ended (s : Snapshot)
  deriving DecidableEq

namespace Reading

def holdsLock : Reading → Bool
  | .copying _ _ | .inEntry _ _ _ _ _ => true
  | _ => false

def remaining : Reading → Nat
  | .copying todo _ => 4 * todo.length + 1
  | .inEntry _ _ (.successes _) todo _ => 4 * todo.length + 4
  | .inEntry _ _ (.failures _ _) todo _ => 4 * todo.length + 3
  | .inEntry _ _ (.meanLatency _ _ _) todo _ => 4 * todo.length + 2
  | _ => 0

end Reading

/-- A tally with the calls on it. A recording counts its total, looks up the entry of its host,
makes one if there was none, and then changes the counts of the entry one by one. A reading copies
the entries count by count, and reads the totals last; while it copies, no entry can be made, but
counts can change. An entry goes by its place among all that were ever made. -/
structure SharedTally where
  selections : UInt64 := 0
  failed : UInt64 := 0
  probes : UInt64 := 0
  entries : List HostTally := []
  installed : Table Nat := ∅
  recordings : List Recording := []
  readings : List Reading := []
  deriving DecidableEq

namespace SharedTally

def ofTally (t : Tally) : SharedTally where
  selections := t.selections
  failed := t.failed
  probes := t.probes
  entries := t.hosts.keys.map t.host
  installed := t.hosts.map fun host _ => t.hosts.keys.idxOf host

def entry (s : SharedTally) (i : Nat) : HostTally :=
  s.entries[i]?.getD {}

def tally (s : SharedTally) : Tally where
  selections := s.selections
  failed := s.failed
  probes := s.probes
  hosts := s.installed.map fun _ i => s.entry i

/-- All recordings so far have ended. -/
def Settled (s : SharedTally) : Prop :=
  ∀ x ∈ s.recordings, x.unwritten = []

/-- No reading holds the lock. -/
def Unlocked (s : SharedTally) : Prop :=
  ∀ x ∈ s.readings, x.holdsLock = false

theorem unlocked_of_no_reading {s : SharedTally} (h : s.readings = []) : s.Unlocked := by
  intro x hx
  rw [h] at hx
  cases hx

def count (s : SharedTally) : Tally.Write → SharedTally
  | .selections => { s with selections := s.selections + 1 }
  | .failed => { s with failed := s.failed + 1 }
  | .probes => { s with probes := s.probes + 1 }
  | _ => s

def advance (s : SharedTally) (d : Nat) (x : Recording) : SharedTally :=
  { s with recordings := s.recordings.set d x }

def advanceReading (s : SharedTally) (k : Nat) (x : Reading) : SharedTally :=
  { s with readings := s.readings.set k x }

/-- What a reading becomes when it reads the next count. -/
def load (s : SharedTally) : Reading → Option Reading
  | .copying [] hosts => some (.copied { hosts })
  | .copying ((h, i) :: todo) hosts =>
    some (.inEntry h i (.successes (s.entry i).successes) todo hosts)
  | .inEntry h i (.successes n) todo hosts =>
    some (.inEntry h i (.failures n (s.entry i).failures) todo hosts)
  | .inEntry h i (.failures n m) todo hosts =>
    some (.inEntry h i (.meanLatency n m
      (if n + m = 0 then 0 else (s.entry i).latency / (n + m))) todo hosts)
  | .inEntry h i (.meanLatency n m mean) todo hosts =>
    some (.copying todo (hosts.insert h {
      host := h, selected := (s.entry i).selected, successes := n, failures := m
      meanLatency := mean }))
  | .copied x => some (.selectionsRead { x with selections := s.selections })
  | .selectionsRead x => some (.failedRead { x with failed := s.failed })
  | .failedRead x => some (.probesRead { x with probes := s.probes })
  | .waiting | .probesRead _ | .ended _ => none

/-- The steps that are atomic, each with the change that it makes of the tally, if it makes one. The
first recording of a host and those that find its entry all enter the host. -/
inductive Step (s : SharedTally) : Option Tally.Write → SharedTally → Prop where
  | start (r : Record) : Step s none { s with recordings := s.recordings ++ [.start r] }
  | count {d : Nat} {x : Recording} {w : Tally.Write} {ws : List Tally.Write}
    (hd : s.recordings[d]? = some x) (hx : x.unwritten = w :: ws) (hw : w.host? = none) :
    Step s (some w) ((s.count w).advance d { x with unwritten := ws })
  | lookUp {d i : Nat} {x : Recording} {h : String} {ws : List Tally.Write}
    (hd : s.recordings[d]? = some x) (hx : x.unwritten = .enter h :: ws)
    (hl : x.lookup = .pending) (hi : s.installed[h]? = some i) :
    Step s (some (.enter h)) (s.advance d { x with unwritten := ws, lookup := .found i })
  | miss {d : Nat} {x : Recording} {h : String} {ws : List Tally.Write}
    (hd : s.recordings[d]? = some x) (hx : x.unwritten = .enter h :: ws)
    (hl : x.lookup = .pending) (hi : s.installed[h]? = none) :
    Step s none (s.advance d { x with lookup := .missed })
  | getMade {d i : Nat} {x : Recording} {h : String} {ws : List Tally.Write}
    (hd : s.recordings[d]? = some x) (hx : x.unwritten = .enter h :: ws)
    (hl : x.lookup = .missed) (hu : s.Unlocked) (hi : s.installed[h]? = some i) :
    Step s (some (.enter h)) (s.advance d { x with unwritten := ws, lookup := .found i })
  | make {d : Nat} {x : Recording} {h : String} {ws : List Tally.Write}
    (hd : s.recordings[d]? = some x) (hx : x.unwritten = .enter h :: ws)
    (hl : x.lookup = .missed) (hu : s.Unlocked) (hi : s.installed[h]? = none) :
    Step s (some (.enter h))
      ({ s with
        entries := s.entries ++ [({} : HostTally)]
        installed := s.installed.insert h s.entries.length }.advance d
          { x with unwritten := ws, lookup := .found s.entries.length })
  | add {d i : Nat} {x : Recording} {w : Tally.Write} {ws : List Tally.Write}
    (hd : s.recordings[d]? = some x) (hx : x.unwritten = w :: ws) (hl : x.lookup = .found i) :
    Step s (some w)
      ({ s with entries := s.entries.set i (w.onHost (s.entry i)) }.advance d
        { x with unwritten := ws })
  | startReading : Step s none { s with readings := s.readings ++ [.waiting] }
  | lock {k : Nat} {todo : List (String × Nat)} (hk : s.readings[k]? = some .waiting)
    (ht : todo.Perm s.installed.toList) : Step s none (s.advanceReading k (.copying todo ∅))
  | load {k : Nat} {x y : Reading} (hk : s.readings[k]? = some x) (hy : s.load x = some y) :
    Step s none (s.advanceReading k y)
  | readUptime {k : Nat} {x : Snapshot} (hk : s.readings[k]? = some (.probesRead x))
    (uptime : UInt64) : Step s none (s.advanceReading k (.ended { x with uptime }))

inductive Run (s : SharedTally) : List Tally.Write → SharedTally → Prop where
  | nil : Run s [] s
  | snoc {ws : List Tally.Write} {w : Option Tally.Write} {t u : SharedTally} (h : Run s ws t)
    (hs : Step t w u) : Run s (ws ++ w.toList) u

end SharedTally
end HostRotation
