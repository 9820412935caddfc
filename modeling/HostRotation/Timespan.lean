namespace HostRotation

/-- A span of time, in whole nanoseconds. -/
structure Timespan where
  nanoseconds : Nat
  deriving DecidableEq, Repr

namespace Timespan

def ofMillis (ms : Nat) : Timespan :=
  ⟨ms * 1000000⟩

def ofSeconds (seconds nanos : Nat) : Timespan :=
  ⟨seconds * 1000000000 + nanos⟩

def millis (t : Timespan) : Nat :=
  t.nanoseconds / 1000000

def seconds (t : Timespan) : Nat :=
  t.nanoseconds / 1000000000

def subsecond (t : Timespan) : Nat :=
  t.nanoseconds % 1000000000

def twice (t : Timespan) : Timespan :=
  ⟨t.nanoseconds * 2⟩

@[simp] theorem millis_ofMillis (ms : Nat) : (ofMillis ms).millis = ms :=
  Nat.mul_div_cancel ms (by decide)

end Timespan
end HostRotation
