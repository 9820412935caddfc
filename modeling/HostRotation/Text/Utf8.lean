namespace HostRotation.Text.Utf8

/-- A character in the making: its code so far, how many bytes are owed, and the range that the next
of them must lie in. -/
structure Partial where
  code : Nat
  owed : Nat
  low : Nat := 0x80
  high : Nat := 0xBF

inductive Start where
  | whole (c : Char)
  | more (p : Partial)
  | nothing

def start (b : Nat) : Start :=
  if b ≤ 0x7F then .whole (Char.ofNat b)
  else if b < 0xC2 then .nothing
  else if b ≤ 0xDF then .more ⟨b - 0xC0, 1, 0x80, 0xBF⟩
  else if b = 0xE0 then .more ⟨0, 2, 0xA0, 0xBF⟩
  else if b = 0xED then .more ⟨0xD, 2, 0x80, 0x9F⟩
  else if b ≤ 0xEF then .more ⟨b - 0xE0, 2, 0x80, 0xBF⟩
  else if b = 0xF0 then .more ⟨0, 3, 0x90, 0xBF⟩
  else if b ≤ 0xF3 then .more ⟨b - 0xF0, 3, 0x80, 0xBF⟩
  else if b = 0xF4 then .more ⟨4, 3, 0x80, 0x8F⟩
  else .nothing

def replacement : Char := '\uFFFD'

def first (b : Nat) : List Char × Option Partial :=
  match start b with
  | .whole c => ([c], none)
  | .more p => ([], some p)
  | .nothing => ([replacement], none)

/-- Reads one byte: the characters that it completes, and the one it leaves in the making. -/
def next (pending : Option Partial) (b : Nat) : List Char × Option Partial :=
  match pending with
  | none => first b
  | some p =>
    if p.low ≤ b ∧ b ≤ p.high then
      let code := p.code * 64 + (b - 0x80)
      if p.owed ≤ 1 then ([Char.ofNat code], none) else ([], some ⟨code, p.owed - 1, 0x80, 0xBF⟩)
    else
      let (cs, rest) := first b
      (replacement :: cs, rest)

def decodeFrom (pending : Option Partial) : List UInt8 → List Char
  | [] => if pending.isSome then [replacement] else []
  | b :: bs =>
    let (cs, rest) := next pending b.toNat
    cs ++ decodeFrom rest bs

/-- The text that bytes are read as: each longest run of bytes that starts a character but cannot
finish it, and each byte that cannot start one, is read as one replacement character. -/
def decode (bytes : ByteArray) : String :=
  String.ofList (decodeFrom none bytes.toList)

example : decodeFrom none [0xFF, 0xFE, 0x41, 0xC3, 0x28] =
    [replacement, replacement, 'A', replacement, '('] := by decide

end HostRotation.Text.Utf8
