namespace HostRotation.Json

inductive Item where
  | char (c : Char)
  | unit (n : Nat)
  deriving DecidableEq, Repr

namespace Item

def shortEscapes : List (Char × Char) :=
  [('"', '"'), ('\\', '\\'), ('/', '/'), ('b', '\x08'), ('f', '\x0c'), ('n', '\n'), ('r', '\r'),
    ('t', '\t')]

def unescape? (letter : Char) : Option Char :=
  shortEscapes.lookup letter

def hexDigit? (c : Char) : Option Nat :=
  if c.isDigit then some (c.toNat - '0'.toNat)
  else if 'a' ≤ c ∧ c ≤ 'f' then some (c.toNat - 'a'.toNat + 10)
  else if 'A' ≤ c ∧ c ≤ 'F' then some (c.toNat - 'A'.toNat + 10)
  else none

def hexUnit? (a b c d : Char) : Option Nat := do
  let a ← hexDigit? a
  let b ← hexDigit? b
  let c ← hexDigit? c
  let d ← hexDigit? d
  return ((a * 16 + b) * 16 + c) * 16 + d

/-- Reads a literal up to its closing quote. Control characters must be escaped. -/
def scan? : List Char → Option (List Item × List Char)
  | [] => none
  | '"' :: rest => some ([], rest)
  | '\\' :: 'u' :: a :: b :: c :: d :: rest =>
    match hexUnit? a b c d, scan? rest with
    | some n, some (items, rest) => some (unit n :: items, rest)
    | _, _ => none
  | '\\' :: letter :: rest =>
    match unescape? letter, scan? rest with
    | some c, some (items, rest) => some (char c :: items, rest)
    | _, _ => none
  | c :: rest =>
    if c.toNat < 0x20 then none
    else
      match scan? rest with
      | some (items, rest) => some (char c :: items, rest)
      | none => none

theorem length_scan? {cs rest : List Char} {items : List Item} (h : scan? cs = some (items, rest)) :
    rest.length < cs.length := by
  fun_induction scan? cs generalizing items rest with
  | case1 => cases h
  | case2 r =>
    cases h
    exact Nat.lt_succ_self r.length
  | case3 a b c d r n is after hs _ ih =>
    cases h
    exact Nat.lt_add_right 6 (ih hs)
  | case4 => cases h
  | case5 letter r _ c is after hs _ ih =>
    cases h
    exact Nat.lt_add_right 2 (ih hs)
  | case6 => cases h
  | case7 => cases h
  | case8 c r _ _ _ _ is after hs ih =>
    cases h
    exact Nat.lt_add_right 1 (ih hs)
  | case9 => cases h

def isHighSurrogate (n : Nat) : Bool :=
  0xD800 ≤ n && n ≤ 0xDBFF

def isLowSurrogate (n : Nat) : Bool :=
  0xDC00 ≤ n && n ≤ 0xDFFF

def paired (high low : Nat) : Char :=
  Char.ofNat (0x10000 + (high - 0xD800) * 0x400 + (low - 0xDC00))

/-- The text of a literal; none when a surrogate stands alone. -/
def decode? : List Item → Option (List Char)
  | [] => some []
  | char c :: rest => (decode? rest).map (c :: ·)
  | unit n :: rest =>
    if isHighSurrogate n then
      match rest with
      | unit m :: rest => if isLowSurrogate m then (decode? rest).map (paired n m :: ·) else none
      | _ => none
    else if isLowSurrogate n then none
    else (decode? rest).map (Char.ofNat n :: ·)

def text? (items : List Item) : Option String :=
  (decode? items).map String.ofList

def letter? : Char → Option Char
  | '"' => some '"'
  | '\\' => some '\\'
  | '\x08' => some 'b'
  | '\x0c' => some 'f'
  | '\n' => some 'n'
  | '\r' => some 'r'
  | '\t' => some 't'
  | _ => none

def ofChar (c : Char) : Item :=
  if c.toNat < 0x20 ∧ letter? c = none then unit c.toNat else char c

def ofText (s : String) : List Item :=
  s.toList.map ofChar

def hexDigit (n : Nat) : Char :=
  Nat.digitChar (n % 16)

def render : Item → List Char
  | char c =>
    match letter? c with
    | some letter => ['\\', letter]
    | none => [c]
  | unit n => ['\\', 'u', hexDigit (n / 4096), hexDigit (n / 256), hexDigit (n / 16), hexDigit n]

end Item
end HostRotation.Json
