import HostRotation.Cursors
import HostRotation.Proofs.Lists

namespace HostRotation

inductive Draw where
  | started (profile : String)
  | unseen (profile : String)
  | holding (profile : String) (counter : Nat)
  | ended (profile : String) (counter : Nat) (value : UInt64)
  deriving DecidableEq, Repr

def Draw.counter? : Draw → Option Nat
  | .holding _ c | .ended _ c _ => some c
  | _ => none

def Draw.remaining : Draw → Nat
  | .started _ => 3
  | .unseen _ => 2
  | .holding _ _ => 1
  | .ended _ _ _ => 0

/-- Cursors with the draws on them. A draw looks up the counter of its profile, makes one if there
was none, and adds one to the counter that it got; clearing forgets the counters, but a draw keeps
the one it got. A counter goes by its place among all that were ever made, and a draw by its place
among all that were ever started. -/
structure SharedCursors where
  counters : List UInt64
  installed : Table Nat
  draws : List Draw := []
  deriving DecidableEq

namespace SharedCursors

def ofCursors (c : Cursors) : SharedCursors where
  counters := c.counters.keys.map c.value
  installed := c.counters.map fun profile _ => c.counters.keys.idxOf profile

def peek (s : SharedCursors) (profile : String) : Option UInt64 :=
  s.installed[profile]?.bind (s.counters[·]?)

def advance (s : SharedCursors) (draw : Nat) (d : Draw) : SharedCursors :=
  { s with draws := s.draws.set draw d }

inductive Move where
  | started (draw : Nat) (profile : String)
  | found (draw : Nat) (profile : String) (counter : Nat)
  | missed (draw : Nat) (profile : String)
  | made (draw : Nat) (profile : String) (counter : Nat)
  | drew (draw : Nat) (profile : String) (counter : Nat) (value : UInt64)
  | cleared
  deriving DecidableEq, Repr

/-- The steps that are atomic. -/
inductive Step (s : SharedCursors) : Move → SharedCursors → Prop where
  | start (p : String) :
    Step s (.started s.draws.length p) { s with draws := s.draws ++ [.started p] }
  | lookUp {d : Nat} {p : String} {c : Nat} (hd : s.draws[d]? = some (.started p))
    (hc : s.installed[p]? = some c) : Step s (.found d p c) (s.advance d (.holding p c))
  | miss {d : Nat} {p : String} (hd : s.draws[d]? = some (.started p))
    (hc : s.installed[p]? = none) : Step s (.missed d p) (s.advance d (.unseen p))
  | getMade {d : Nat} {p : String} {c : Nat} (hd : s.draws[d]? = some (.unseen p))
    (hc : s.installed[p]? = some c) : Step s (.found d p c) (s.advance d (.holding p c))
  | make {d : Nat} {p : String} (hd : s.draws[d]? = some (.unseen p))
    (hc : s.installed[p]? = none) :
    Step s (.made d p s.counters.length)
      { counters := s.counters ++ [0]
        installed := s.installed.insert p s.counters.length
        draws := s.draws.set d (.holding p s.counters.length) }
  | add {d : Nat} {p : String} {c : Nat} {v : UInt64} (hd : s.draws[d]? = some (.holding p c))
    (hv : s.counters[c]? = some v) :
    Step s (.drew d p c v)
      { s with
        counters := s.counters.set c (v + 1)
        draws := s.draws.set d (.ended p c v) }
  | clear : Step s .cleared { s with installed := ∅ }

/-- The moves of a number of steps, in their order. -/
inductive Run (s : SharedCursors) : List Move → SharedCursors → Prop where
  | nil : Run s [] s
  | snoc {ms : List Move} {m : Move} {t u : SharedCursors} (h : Run s ms t) (hm : Step t m u) :
    Run s (ms ++ [m]) u

def drawnFrom (counter : Nat) (ms : List Move) : List UInt64 :=
  ms.filterMap fun
    | .drew _ _ c v => if c = counter then some v else none
    | _ => none

def drawnOn (profile : String) (ms : List Move) : List UInt64 :=
  ms.filterMap fun
    | .drew _ p _ v => if p = profile then some v else none
    | _ => none

def drawers (ms : List Move) : List Nat :=
  ms.filterMap fun
    | .drew d _ _ _ => some d
    | _ => none

def consecutive (first : UInt64) (n : Nat) : List UInt64 :=
  (List.range n).map fun i => first + .ofNat i

theorem consecutive_succ (first : UInt64) (n : Nat) :
    consecutive first (n + 1) = consecutive first n ++ [first + .ofNat n] := by
  simp [consecutive, List.range_succ]

theorem consecutive_succ' (first : UInt64) (n : Nat) :
    consecutive first (n + 1) = first :: consecutive (first + 1) n := by
  simp only [consecutive, List.range_succ_eq_map, List.map_cons, List.map_map]
  congr 1
  · simp
  · apply List.map_congr_left
    intro i _
    simp [UInt64.ofNat_add, UInt64.add_assoc, UInt64.add_comm 1]

theorem Run.split {s t : SharedCursors} {before after : List Move} {m : Move}
    (h : Run s (before ++ m :: after) t) :
    ∃ u w, Run s before u ∧ Step u m w ∧ Run w after t := by
  generalize hl : before ++ m :: after = l at h
  induction h generalizing after with
  | nil => simp at hl
  | @snoc l m' t u h hm ih =>
    rcases List.eq_nil_or_concat after with rfl | ⟨init, last, rfl⟩
    · obtain ⟨rfl, hlast⟩ := List.append_inj' hl rfl
      cases hlast
      exact ⟨t, u, h, hm, .nil⟩
    · rw [List.concat_eq_append, ← List.cons_append, ← List.append_assoc] at hl
      obtain ⟨rfl, hlast⟩ := List.append_inj' hl rfl
      cases hlast
      obtain ⟨v, w, hv, hs, hw⟩ := ih rfl
      rw [List.concat_eq_append]
      exact ⟨v, w, hv, hs, .snoc hw hm⟩

end SharedCursors
end HostRotation
