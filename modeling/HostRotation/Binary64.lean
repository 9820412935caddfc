namespace HostRotation

/-- A finite binary64 number that is not negative, named by its bit pattern, which also orders the
numbers. -/
structure Binary64 where
  bits : Nat
  finite : bits < 2047 <<< 52 := by decide
  deriving DecidableEq, Repr

namespace Binary64

def zero : Binary64 :=
  { bits := 0 }

/-- The exponent of a number's last place, counted from that of the least positive number. -/
def scale (x : Binary64) : Nat :=
  (x.bits >>> 52) - 1

def significand (x : Binary64) : Nat :=
  x.bits - (x.scale <<< 52)

/-- A number in units of the least positive one, `2 ^ -1074`. -/
def units (x : Binary64) : Nat :=
  x.significand <<< x.scale

/-- The whole number nearest to a quotient, a tie going to the even one. -/
def roundDiv (num den : Nat) : Nat :=
  let q := num / den
  let r := num % den
  if 2 * r < den ∨ 2 * r = den ∧ q % 2 = 0 then q else q + 1

/-- The exponent of the last place that a quotient of units is rounded to. -/
def scaleOf (num den : Nat) : Nat :=
  (num / den).log2 - 52

/-- The number nearest to a quotient of units; none when it is out of range. -/
def ofUnits? (num den : Nat) : Option Binary64 :=
  let s := scaleOf num den
  let bits := (s <<< 52) + roundDiv num (den <<< s)
  if h : bits < 2047 <<< 52 then some { bits, finite := h } else none

def ofQuotient? (num den : Nat) : Option Binary64 :=
  ofUnits? (num <<< 1074) den

def ofNat? (n : Nat) : Option Binary64 :=
  ofQuotient? n 1

def mul? (x y : Binary64) : Option Binary64 :=
  ofUnits? (x.units * y.units) (1 <<< 1074)

def div? (x y : Binary64) : Option Binary64 :=
  if y.units = 0 then none else ofQuotient? x.units y.units

example : (ofQuotient? 1 3).map bits = some 0x3FD5555555555555 := by decide +kernel
example : (ofNat? ((1 <<< 53) + 1)).map bits = some 0x4340000000000000 := by decide +kernel
example : (ofQuotient? 1 (1 <<< 1074)).map bits = some 1 := by decide +kernel
example : (ofNat? ((1 <<< 1024) - 1)).map bits = none := by decide +kernel

end Binary64
end HostRotation
