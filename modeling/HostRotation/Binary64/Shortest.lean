import HostRotation.Binary64
import HostRotation.Text.Numeral

namespace HostRotation

/-- The digits of a positive decimal, the first standing before the point, and its power of ten. -/
structure Decimal where
  digits : List Char
  power : Int
  deriving DecidableEq, Repr

/-- A decimal with the trailing zeros of a whole number left out: `n` times ten to the `p`. -/
def Decimal.ofScaled (n : Nat) (p : Int) : Decimal :=
  let digits := Nat.toDigits 10 n
  ⟨(digits.reverse.dropWhile (· == '0')).reverse, p + (digits.length - 1 : Nat)⟩

def tenTo (n : Nat) : Nat :=
  Nat.pow 10 n

namespace Binary64

/-- A power of ten that makes a whole number of every step of every decimal grid in use. -/
def gridScale : Nat := 400

def leadingPower (x : Binary64) : Int :=
  ((Nat.toDigits 10 ((x.units * tenTo gridScale) >>> 1074)).length - 1 : Nat) - (gridScale : Int)

/-- Twice the units of the least and of the greatest value that is rounded to a number. -/
def roundingBounds (x : Binary64) : Nat × Nat :=
  let step := 1 <<< x.scale
  let below := if x.scale = 0 ∨ 1 <<< 52 < x.significand then step else 1 <<< (x.scale - 1)
  (2 * x.units - below, 2 * x.units + step)

/-- The step of the decimal grid with the given number of digits, the first of them standing for
the given power of ten, in the measure of `onGrid`. -/
def gridStep (leading : Int) (digits : Nat) : Nat :=
  tenTo (leading + gridScale + 1 - digits).toNat <<< 1074

def readsBack (x : Binary64) (step n : Nat) : Bool :=
  let (low, high) := x.roundingBounds
  let v := 2 * n * step
  let low := low * tenTo gridScale
  let high := high * tenTo gridScale
  if x.bits % 2 = 0 then low ≤ v && v ≤ high else low < v && v < high

/-- The multiple of a grid step that is nearest to the number among its two neighbours on the grid
that are read back as the number, if one is. Of two equally near it is the even one. -/
def onGrid (x : Binary64) (step : Nat) : Option Nat :=
  let v := x.units * tenTo gridScale
  let n := v / step
  match x.readsBack step n, x.readsBack step (n + 1) with
  | true, true => some (roundDiv v step)
  | true, false => some n
  | false, true => some (n + 1)
  | false, false => none

/-- The shortest decimal with at least the given number of digits, the first of them standing for
the given power of ten, looked for on so many grids. -/
def shortestFrom (x : Binary64) (leading : Int) (digits : Nat) : Nat → Decimal
  | 0 => .ofScaled (x.units * tenTo gridScale / gridStep leading digits) (leading + 1 - digits)
  | grids + 1 =>
    match x.onGrid (gridStep leading digits) with
    | some n => .ofScaled n (leading + 1 - digits)
    | none => x.shortestFrom leading (digits + 1) grids

def shortest (x : Binary64) : Decimal :=
  x.shortestFrom x.leadingPower 1 17

example : (Binary64.mk 1).shortest = ⟨['5'], -324⟩ := by decide +kernel

end Binary64
end HostRotation
