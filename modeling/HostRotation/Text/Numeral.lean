namespace HostRotation.Text

inductive NumeralFault where
  | empty
  | badDigit
  | tooLarge
  deriving DecidableEq, Repr

def NumeralFault.message : NumeralFault → String
  | .empty => "cannot parse integer from empty string"
  | .badDigit => "invalid digit found in string"
  | .tooLarge => "number too large to fit in target type"

def pushDigit (n : Nat) (c : Char) : Nat :=
  10 * n + (c.toNat - '0'.toNat)

def digitsValue (cs : List Char) : Nat :=
  cs.foldl pushDigit 0

/-- Reads digits after a value read so far. The first character that is no digit, or that takes the
value past the limit, decides the fault. -/
def readDigits (limit : Nat) (n : Nat) : List Char → Except NumeralFault Nat
  | [] => .ok n
  | c :: cs =>
    if c.isDigit then
      if pushDigit n c ≤ limit then readDigits limit (pushDigit n c) cs else .error .tooLarge
    else .error .badDigit

def readNumeral (limit : Nat) : List Char → Except NumeralFault Nat
  | [] => .error .empty
  | ['+'] => .error .badDigit
  | '+' :: c :: cs => readDigits limit 0 (c :: cs)
  | c :: cs => readDigits limit 0 (c :: cs)

def readUInt16 (s : String) : Except NumeralFault UInt16 :=
  (readNumeral (UInt16.size - 1) s.toList).map UInt16.ofNat

def readUInt32 (s : String) : Except NumeralFault UInt32 :=
  (readNumeral (UInt32.size - 1) s.toList).map UInt32.ofNat

def readUInt64 (s : String) : Except NumeralFault UInt64 :=
  (readNumeral (UInt64.size - 1) s.toList).map UInt64.ofNat

def numeral (n : Nat) : String :=
  String.ofList (Nat.toDigits 10 n)

@[simp] theorem toList_numeral (n : Nat) : (numeral n).toList = Nat.toDigits 10 n :=
  String.toList_ofList

theorem le_foldl_pushDigit (cs : List Char) (n : Nat) : n ≤ cs.foldl pushDigit n := by
  induction cs generalizing n with
  | nil => exact Nat.le_refl n
  | cons c cs ih =>
    have h := ih (pushDigit n c)
    simp only [List.foldl_cons, pushDigit] at *
    omega

theorem readDigits_eq_ok_iff {limit n v : Nat} {cs : List Char} (hn : n ≤ limit) :
    readDigits limit n cs = .ok v ↔
      (∀ c ∈ cs, c.isDigit) ∧ cs.foldl pushDigit n = v ∧ v ≤ limit := by
  induction cs generalizing n with
  | nil =>
    simp only [readDigits, Except.ok.injEq, List.not_mem_nil, false_implies, implies_true, true_and]
    exact ⟨fun h => ⟨h, h ▸ hn⟩, fun h => h.1⟩
  | cons c cs ih =>
    by_cases hd : c.isDigit
    · by_cases hl : pushDigit n c ≤ limit
      · simp [readDigits, hd, hl, ih hl]
      · simp only [readDigits, hd, hl, if_true, if_false, reduceCtorEq, false_iff, not_and,
          List.foldl_cons]
        rintro - rfl
        exact Nat.not_le.2 (Nat.lt_of_lt_of_le (Nat.not_le.1 hl) (le_foldl_pushDigit cs _))
    · simp [readDigits, hd]

theorem digitsValue_toDigits (n : Nat) : digitsValue (Nat.toDigits 10 n) = n :=
  Nat.ofDigitChars_toDigits (by decide) (by decide)

theorem isDigit_of_mem_toDigits {n : Nat} {c : Char} (h : c ∈ Nat.toDigits 10 n) : c.isDigit :=
  Nat.isDigit_of_mem_toDigits (by decide) (by decide) h

theorem readNumeral_eq_readDigits {limit : Nat} {cs : List Char} (hn : cs ≠ [])
    (h : ∀ c ∈ cs, c.isDigit) : readNumeral limit cs = readDigits limit 0 cs := by
  cases cs with
  | nil => exact absurd rfl hn
  | cons c cs =>
    have hc : c ≠ '+' := by
      rintro rfl
      exact absurd (h '+' List.mem_cons_self) (by decide)
    rw [readNumeral] <;> simp [hc]

theorem readNumeral_toDigits {limit n : Nat} (h : n ≤ limit) :
    readNumeral limit (Nat.toDigits 10 n) = .ok n := by
  rw [readNumeral_eq_readDigits Nat.toDigits_ne_nil fun c hc => isDigit_of_mem_toDigits hc,
    readDigits_eq_ok_iff (Nat.zero_le limit)]
  exact ⟨fun c hc => isDigit_of_mem_toDigits hc, digitsValue_toDigits n, h⟩

theorem readUInt64_numeral (n : UInt64) : readUInt64 (numeral n.toNat) = .ok n := by
  have h : n.toNat ≤ UInt64.size - 1 := Nat.le_sub_one_of_lt n.toNat_lt
  rw [readUInt64, toList_numeral, readNumeral_toDigits h, Except.map, UInt64.ofNat_toNat]

theorem readUInt16_numeral (n : UInt16) : readUInt16 (numeral n.toNat) = .ok n := by
  have h : n.toNat ≤ UInt16.size - 1 := Nat.le_sub_one_of_lt n.toNat_lt
  rw [readUInt16, toList_numeral, readNumeral_toDigits h, Except.map, UInt16.ofNat_toNat]

end HostRotation.Text
