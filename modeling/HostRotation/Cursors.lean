import HostRotation.Table

namespace HostRotation

/-- A 64-bit counter for each profile that was used since all of them were cleared. A counter starts
at zero and wraps from the last value to zero. -/
structure Cursors where
  counters : Table UInt64
  deriving DecidableEq

namespace Cursors

def empty : Cursors :=
  ⟨∅⟩

/-- The value that the profile's next draw hands out, unless the profile is unused. -/
def peek (c : Cursors) (profile : String) : Option UInt64 :=
  c.counters[profile]?

def value (c : Cursors) (profile : String) : UInt64 :=
  (c.peek profile).getD 0

def seed (c : Cursors) (profile : String) (v : UInt64) : Cursors :=
  ⟨c.counters.insert profile v⟩

/-- Hands out the value of a profile's counter and advances it by one. -/
def draw (c : Cursors) (profile : String) : UInt64 × Cursors :=
  (c.value profile, c.seed profile (c.value profile + 1))

def size (c : Cursors) : Nat :=
  c.counters.size

def drawMany (c : Cursors) (profile : String) : Nat → List UInt64 × Cursors
  | 0 => ([], c)
  | n + 1 =>
    let (v, c) := c.draw profile
    let (vs, c) := c.drawMany profile n
    (v :: vs, c)

@[simp] theorem peek_empty (p : String) : empty.peek p = none := by
  simp [peek, empty]

theorem peek_seed (c : Cursors) (p q : String) (v : UInt64) :
    (c.seed p v).peek q = if p = q then some v else c.peek q := by
  simp [peek, seed, Std.ExtTreeMap.getElem?_insert]

theorem peek_draw (c : Cursors) (p q : String) :
    (c.draw p).2.peek q = if p = q then some (c.value p + 1) else c.peek q :=
  peek_seed c p q _

theorem drawMany_succ (c : Cursors) (p : String) (n : Nat) :
    c.drawMany p (n + 1) =
      ((c.drawMany p n).1 ++ [(c.drawMany p n).2.value p], ((c.drawMany p n).2.draw p).2) := by
  induction n generalizing c with
  | zero => rfl
  | succ n ih =>
    calc c.drawMany p (n + 1 + 1)
      _ = (c.value p :: ((c.draw p).2.drawMany p (n + 1)).1, ((c.draw p).2.drawMany p (n + 1)).2) :=
        rfl
      _ = _ := by
        rw [ih]
        rfl

end Cursors
end HostRotation
