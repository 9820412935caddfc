namespace HostRotation.Text

/-- Two texts are the same name when they differ at most in the case of ASCII letters. -/
def sameName (a b : String) : Bool :=
  a.toList.map Char.toLower == b.toList.map Char.toLower

theorem sameName_iff {a b : String} :
    sameName a b ↔ a.toList.map Char.toLower = b.toList.map Char.toLower := by
  simp [sameName]

@[simp] theorem sameName_refl (a : String) : sameName a a := by
  simp [sameName]

end HostRotation.Text
