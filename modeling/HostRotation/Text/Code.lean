namespace HostRotation.Text

def hexadecimal (n : Nat) : List Char :=
  Nat.toDigits 16 n

/-- A character by its code in braces, with as many digits as it needs. -/
def bracedCode (c : Char) : List Char :=
  ['\\', 'u', '\x7b'] ++ hexadecimal c.toNat ++ ['\x7d']

def byteCode (c : Char) : List Char :=
  ['\\', 'x', Nat.digitChar (c.toNat / 16), Nat.digitChar (c.toNat % 16)]

end HostRotation.Text
