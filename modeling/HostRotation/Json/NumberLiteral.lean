import HostRotation.Text.Numeral

namespace HostRotation.Json

inductive ExponentSign where
  | unsigned
  | plus
  | minus
  deriving DecidableEq, Repr

structure NumberLiteral where
  negative : Bool := false
  whole : List Char
  fraction : Option (List Char) := none
  exponent : Option (ExponentSign × List Char) := none
  deriving DecidableEq, Repr

namespace NumberLiteral

def isNumberChar (c : Char) : Bool :=
  c.isDigit || c == '-' || c == '+' || c == '.' || c == 'e' || c == 'E'

def digits? (cs : List Char) : Option (List Char × List Char) :=
  match cs.takeWhile Char.isDigit with
  | [] => none
  | ds => some (ds, cs.dropWhile Char.isDigit)

/-- Splits off the whole part, in which a zero stands alone. -/
def whole? : List Char → Option (List Char × List Char)
  | '0' :: rest => some (['0'], rest)
  | cs => digits? cs

def fraction? : List Char → Option (Option (List Char) × List Char)
  | '.' :: rest => (digits? rest).map fun (ds, rest) => (some ds, rest)
  | cs => some (none, cs)

def sign (cs : List Char) : ExponentSign × List Char :=
  match cs with
  | '+' :: rest => (.plus, rest)
  | '-' :: rest => (.minus, rest)
  | cs => (.unsigned, cs)

def exponent? : List Char → Option (Option (ExponentSign × List Char) × List Char)
  | 'e' :: rest | 'E' :: rest =>
    (digits? (sign rest).2).map fun (ds, after) => (some ((sign rest).1, ds), after)
  | cs => some (none, cs)

def ofChars? (cs : List Char) : Option NumberLiteral := do
  let (negative, cs) := match cs with
    | '-' :: rest => (true, rest)
    | cs => (false, cs)
  let (whole, cs) ← whole? cs
  let (fraction, cs) ← fraction? cs
  let (exponent, cs) ← exponent? cs
  if cs.isEmpty then some { negative, whole, fraction, exponent } else none

def renderSign : ExponentSign → List Char
  | .unsigned => []
  | .plus => ['+']
  | .minus => ['-']

def render (l : NumberLiteral) : List Char :=
  (if l.negative then ['-'] else []) ++ l.whole
    ++ (match l.fraction with
      | some ds => '.' :: ds
      | none => [])
    ++ (match l.exponent with
      | some (s, ds) => 'e' :: renderSign s ++ ds
      | none => [])

def isWhole (l : NumberLiteral) : Bool :=
  l.fraction.isNone && l.exponent.isNone

end NumberLiteral
end HostRotation.Json
