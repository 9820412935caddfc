import HostRotation.Binary64.Shortest
import HostRotation.Json.NumberLiteral

namespace HostRotation.Json

inductive Number where
  | integer (n : Int)
  | real (negative : Bool) (x : Binary64)
  deriving DecidableEq, Repr

namespace Number

/-- The significand after as many digits as 64 bits take, and the digits that are left. The first
digit that does not fit leaves itself and all after it. -/
def absorb (n : Nat) : List Char → Nat × List Char
  | [] => (n, [])
  | c :: cs =>
    if Text.pushDigit n c < UInt64.size then absorb (Text.pushDigit n c) cs else (n, c :: cs)

def powerOfTen (n : Nat) : Binary64 :=
  (Binary64.ofNat? (tenTo n)).getD .zero

def maxPower : Nat := 308

def shrink? (x : Binary64) : Nat → Option Binary64
  | 0 => some x
  | n + 1 => if x = .zero then some x else (x.div? (powerOfTen maxPower)).bind (shrink? · n)

/-- A number times a power of ten, each operation rounded. A positive power that is out of range
leaves only zero; a negative one is divided by in steps. -/
def scale? (x : Binary64) (e : Int) : Option Binary64 :=
  if 0 ≤ e then
    if e.natAbs ≤ maxPower then x.mul? (powerOfTen e.natAbs)
    else if x = .zero then some x
    else none
  else
    let steps := (e.natAbs - 1) / maxPower
    (shrink? x steps).bind (·.div? (powerOfTen (e.natAbs - steps * maxPower)))

def exponentValue : Option (ExponentSign × List Char) → Int
  | some (.minus, ds) => -(Text.digitsValue ds : Int)
  | some (_, ds) => Text.digitsValue ds
  | none => 0

/-- The magnitude of a literal as a binary64 number; none when it is out of range. It comes of one
scaling of a 64-bit significand, which need not give the nearest number. -/
def magnitude? (l : NumberLiteral) : Option Binary64 :=
  let fraction := l.fraction.getD []
  let (n, left) := absorb 0 l.whole
  let (n, unread) := absorb n fraction
  let read := fraction.length - unread.length
  let e := exponentValue l.exponent + (left.length : Int) - (read : Int)
  (Binary64.ofNat? n).bind (scale? · e)

def ofLiteral? (l : NumberLiteral) : Option Number :=
  let n := Text.digitsValue l.whole
  if l.isWhole ∧ ¬ l.negative ∧ n < UInt64.size then some (.integer n)
  else if l.isWhole ∧ l.negative ∧ 0 < n ∧ 2 * n ≤ UInt64.size then some (.integer (-n))
  else (magnitude? l).map (.real l.negative)

/-- The literal of a decimal: positional from the fifth place after the point to the sixteenth
before it, with an exponent outside of these. -/
def decimalLiteral (negative : Bool) (d : Decimal) : NumberLiteral :=
  let places := d.power.natAbs
  if 16 ≤ d.power ∨ d.power ≤ -6 then
    { negative
      whole := d.digits.take 1
      fraction := if d.digits.length ≤ 1 then none else some (d.digits.drop 1)
      exponent := some (if 0 ≤ d.power then .plus else .minus, Nat.toDigits 10 places) }
  else if d.power < 0 then
    { negative, whole := ['0'], fraction := some (List.replicate (places - 1) '0' ++ d.digits) }
  else
    { negative
      whole := d.digits.take (places + 1) ++ List.replicate (places + 1 - d.digits.length) '0'
      fraction :=
        some (if d.digits.length ≤ places + 1 then ['0'] else d.digits.drop (places + 1)) }

def literal : Number → NumberLiteral
  | .integer n => { negative := n < 0, whole := Nat.toDigits 10 n.natAbs }
  | .real negative x =>
    if x = .zero then { negative, whole := ['0'], fraction := some ['0'] }
    else decimalLiteral negative x.shortest

def render (n : Number) : List Char :=
  n.literal.render

def unsigned? (l : NumberLiteral) : Option UInt64 :=
  match ofLiteral? l with
  | some (.integer (.ofNat n)) => some (UInt64.ofNat n)
  | _ => none

end Number
end HostRotation.Json
