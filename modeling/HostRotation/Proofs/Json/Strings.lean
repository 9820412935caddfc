import HostRotation.Json.StringLiteral

namespace HostRotation.Json.Item

theorem hexDigit?_hexDigit (n : Nat) : hexDigit? (hexDigit n) = some (n % 16) := by
  have h : ∀ d < 16, hexDigit? (Nat.digitChar d) = some d := by decide
  exact h (n % 16) (Nat.mod_lt n (by decide))

theorem hexUnit?_hexDigit {n : Nat} (h : n < 65536) :
    hexUnit? (hexDigit (n / 4096)) (hexDigit (n / 256)) (hexDigit (n / 16)) (hexDigit n) =
      some n := by
  simp only [hexUnit?, hexDigit?_hexDigit, Option.bind_eq_bind, Option.bind_some, Option.pure_def,
    Option.some.injEq]
  omega

theorem scan?_unit {n : Nat} (h : n < 65536) (rest : List Char) :
    scan? ((unit n).render ++ rest) = (scan? rest).map fun r => (unit n :: r.1, r.2) := by
  simp only [render, List.cons_append, List.nil_append, scan?, hexUnit?_hexDigit h]
  cases scan? rest <;> rfl

theorem unescape?_of_letter? {c letter : Char} (h : letter? c = some letter) :
    unescape? letter = some c ∧ letter ≠ 'u' := by
  unfold letter? at h
  split at h
  all_goals cases h
  all_goals decide

theorem scan?_escape {c letter : Char} (h : letter? c = some letter) (rest : List Char) :
    scan? ('\\' :: letter :: rest) = (scan? rest).map fun r => (char c :: r.1, r.2) := by
  obtain ⟨hc, hu⟩ := unescape?_of_letter? h
  rw [scan?, hc]
  · cases scan? rest <;> rfl
  · exact fun _ _ _ _ _ he => absurd he hu

theorem scan?_char {c : Char} (h : letter? c = none) (hc : 0x20 ≤ c.toNat) (rest : List Char) :
    scan? (c :: rest) = (scan? rest).map fun r => (char c :: r.1, r.2) := by
  rw [scan?, if_neg (Nat.not_lt.2 hc)]
  · cases scan? rest <;> rfl
  · rintro rfl
    cases h
  · rintro _ _ _ _ _ rfl
    cases h
  · rintro _ _ rfl
    cases h

theorem scan?_ofChar (c : Char) (rest : List Char) :
    scan? ((ofChar c).render ++ rest) = (scan? rest).map fun r => (ofChar c :: r.1, r.2) := by
  rw [ofChar]
  split
  · next h => exact scan?_unit (Nat.lt_trans h.1 (by decide)) rest
  · next h =>
    cases hl : letter? c with
    | some letter =>
      rw [render, hl]
      exact scan?_escape hl rest
    | none =>
      have hc : 0x20 ≤ c.toNat := Nat.not_lt.1 fun hlt => h ⟨hlt, hl⟩
      rw [render, hl]
      exact scan?_char hl hc rest

theorem scan?_ofText (s : String) (rest : List Char) :
    scan? ((ofText s).flatMap render ++ '"' :: rest) = some (ofText s, rest) := by
  rw [ofText]
  induction s.toList with
  | nil => rfl
  | cons c cs ih =>
    rw [List.map_cons, List.flatMap_cons, List.append_assoc, scan?_ofChar, ih]
    rfl

theorem decode?_cons_ofChar (c : Char) (items : List Item) :
    decode? (ofChar c :: items) = (decode? items).map (c :: ·) := by
  rw [ofChar]
  split
  · next h =>
    have hhigh : isHighSurrogate c.toNat = false := by
      simp [isHighSurrogate]
      omega
    have hlow : isLowSurrogate c.toNat = false := by
      simp [isLowSurrogate]
      omega
    rw [decode?.eq_def]
    simp only [hhigh, hlow, Bool.false_eq_true, if_false, Char.ofNat_toNat]
  · rw [decode?]

@[simp] theorem text?_ofText (s : String) : text? (ofText s) = some s := by
  have hdecode (cs : List Char) : decode? (cs.map ofChar) = some cs := by
    induction cs with
    | nil => rfl
    | cons c cs ih => rw [List.map_cons, decode?_cons_ofChar, ih, Option.map_some]
  rw [text?, ofText, hdecode, Option.map_some, String.ofList_toList]

end HostRotation.Json.Item
