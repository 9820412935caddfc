import HostRotation.Log

namespace HostRotation

inductive Liveness where
  | alive
  | dead
  deriving DecidableEq, Repr

namespace Liveness

def isAlive : Liveness → Bool
  | .alive => true
  | .dead => false

def ofBool : Bool → Liveness
  | true => .alive
  | false => .dead

@[simp] theorem isAlive_ofBool (b : Bool) : (ofBool b).isAlive = b := by
  cases b <;> rfl

end Liveness

structure Check where
  liveness : Liveness
  entries : List Log.Entry := []
  deriving DecidableEq, Repr

/-- A check with the time that it took, in microseconds. -/
structure Answer where
  check : Check
  latency : UInt64 := 0
  deriving DecidableEq, Repr

end HostRotation
