import HostRotation.Proofs.Text.Numerals

namespace HostRotation.Text

variable {bound n : Nat} {c : Char} {cs before after : List Char} {s : String}

/-- What keeps characters from writing a number from one up to a bound. A minus sign, a second plus
sign, a blank or an underscore between digits and a digit of another script are all stray. -/
inductive Defective (bound : Nat) : List Char → Prop where
  | empty : Defective bound []
  | sign : Defective bound ['+']
  | stray (before after : List Char) {c : Char} (hc : c.isDigit = false)
    (hsign : c = '+' → before ≠ []) : Defective bound (before ++ c :: after)
  | outOfRange {cs : List Char} {n : Nat} (h : Writes cs n) (hn : n = 0 ∨ bound ≤ n) :
    Defective bound cs

theorem writes_of_digits (hn : cs ≠ []) (h : ∀ c ∈ cs, c.isDigit) : Writes cs (decimalValue cs) :=
  ⟨cs, .inl rfl, hn, h, rfl⟩

theorem Writes.plus (hn : cs ≠ []) (h : ∀ c ∈ cs, c.isDigit) :
    Writes ('+' :: cs) (decimalValue cs) :=
  ⟨cs, .inr rfl, hn, h, rfl⟩

theorem Writes.cons_inv (h : Writes (c :: cs) n) :
    (c = '+' ∧ cs ≠ [] ∨ c.isDigit) ∧ ∀ d ∈ cs, d.isDigit := by
  obtain ⟨digits, he, hn, hdigits, -⟩ := h
  rcases he with rfl | he
  · exact ⟨.inr (hdigits c List.mem_cons_self), fun d hd => hdigits d (List.mem_cons_of_mem c hd)⟩
  · obtain ⟨rfl, rfl⟩ := List.cons.inj he
    exact ⟨.inl ⟨rfl, hn⟩, hdigits⟩

theorem not_writes_nil : ¬Writes [] n := by
  rintro ⟨digits, he, hn, -, -⟩
  rcases he with rfl | he
  · exact hn rfl
  · cases he

theorem Defective.not_writes (h : Defective bound cs) (hpos : 0 < n) (hn : n < bound) :
    ¬Writes cs n := by
  intro hw
  cases h with
  | empty => exact not_writes_nil hw
  | sign =>
    rcases hw.cons_inv.1 with ⟨-, hnil⟩ | hdigit
    · exact hnil rfl
    · cases hdigit
  | @stray before after c hc hsign =>
    have hmem : c ∈ before ++ c :: after := List.mem_append_right before List.mem_cons_self
    have hdigit : c.isDigit := by
      rcases hw.chars c hmem with hplus | hdigit
      · obtain ⟨first, rest, rfl⟩ := List.exists_cons_of_ne_nil (hsign hplus)
        exact hw.cons_inv.2 c (List.mem_append_right rest List.mem_cons_self)
      · exact hdigit
    rw [hc] at hdigit
    cases hdigit
  | outOfRange hm hout =>
    obtain rfl := hm.unique hw
    omega

theorem digits_or_stray (cs : List Char) :
    (∀ c ∈ cs, c.isDigit) ∨ ∃ before c after, cs = before ++ c :: after ∧ c.isDigit = false := by
  by_cases h : ∀ c ∈ cs, c.isDigit
  · exact .inl h
  · obtain ⟨c, hc, hd⟩ : ∃ c, c ∈ cs ∧ c.isDigit = false := by simpa using h
    obtain ⟨before, after, he⟩ := List.append_of_mem hc
    exact .inr ⟨before, c, after, he, hd⟩

theorem writes_or_defective (bound : Nat) (cs : List Char) :
    (∃ n, Writes cs n) ∨ Defective bound cs := by
  cases cs with
  | nil => exact .inr .empty
  | cons first rest =>
    -- a plus sign counts in front only, where digits have to follow it
    by_cases hplus : first = '+'
    · subst hplus
      by_cases hrest : rest = []
      · rw [hrest]
        exact .inr .sign
      · rcases digits_or_stray rest with hd | ⟨before, c, after, rfl, hc⟩
        · exact .inl ⟨_, .plus hrest hd⟩
        · exact .inr (.stray ('+' :: before) after hc fun _ => List.cons_ne_nil _ _)
    · rcases digits_or_stray (first :: rest) with hd | ⟨before, c, after, he, hc⟩
      · exact .inl ⟨_, writes_of_digits (List.cons_ne_nil _ _) hd⟩
      · rw [he]
        refine .inr (.stray before after hc ?_)
        rintro rfl rfl
        exact hplus (List.cons.inj he).1

theorem defective_iff : Defective bound cs ↔ ¬∃ n, 0 < n ∧ n < bound ∧ Writes cs n := by
  constructor
  · rintro h ⟨n, hpos, hn, hw⟩
    exact h.not_writes hpos hn hw
  · intro h
    rcases writes_or_defective bound cs with ⟨n, hw⟩ | hd
    · refine .outOfRange hw ?_
      by_contra hout
      exact h ⟨n, by omega, by omega, hw⟩
    · exact hd

theorem decimalValue_zeros_append (zeros : Nat) (cs : List Char) :
    decimalValue (List.replicate zeros '0' ++ cs) = decimalValue cs := by
  induction zeros with
  | zero => rfl
  | succ zeros ih =>
    rw [← ih, List.replicate_succ, List.cons_append]
    simp [decimalValue, Nat.ofDigits_append]

theorem writes_zeros_append (zeros n : Nat) :
    Writes (List.replicate zeros '0' ++ Nat.toDigits 10 n) n := by
  refine ⟨_, .inl rfl, by simp [Nat.toDigits_ne_nil], ?_, ?_⟩
  · intro c hc
    rcases List.mem_append.1 hc with hzero | hdigit
    · rw [List.eq_of_mem_replicate hzero]
      rfl
    · exact isDigit_of_mem_toDigits hdigit
  · rw [decimalValue_zeros_append, ← digitsValue_eq_decimalValue, digitsValue_toDigits]

theorem Writes.not_blank (h : Writes cs n) : ∀ c ∈ cs, isBlank c = false := by
  intro c hc
  rcases h.chars c hc with rfl | hdigit
  · decide
  · exact isBlank_of_isDigit hdigit

/-- A text that is a numeral of a number but for blanks at its ends. -/
def HoldsNumeral (s : String) (n : Nat) : Prop :=
  ∃ before core after : String, isBlankText before ∧ isBlankText after ∧
    Writes core.toList n ∧ s = before ++ core ++ after

theorem denotes_iff : Denotes s n ↔ HoldsNumeral s n := by
  constructor
  · intro h
    obtain ⟨before, after, hbefore, hafter, he⟩ := exists_blanks_around s.toList
    refine ⟨.ofList before, trim s, .ofList after, ?_, ?_, h, ?_⟩
    · rw [isBlankText, String.toList_ofList]
      exact List.all_eq_true.2 hbefore
    · rw [isBlankText, String.toList_ofList]
      exact List.all_eq_true.2 hafter
    · rw [← String.toList_inj]
      simpa using he
  · rintro ⟨before, core, after, hbefore, hafter, hw, rfl⟩
    have htrim : trim (before ++ core ++ after) = trim core := by
      rw [← String.toList_inj, toList_trim, toList_trim, String.toList_append,
        String.toList_append, List.append_assoc]
      exact trimChars_append (List.all_eq_true.1 hbefore) (List.all_eq_true.1 hafter)
    rw [Denotes, htrim, trim_eq_self hw.not_blank]
    exact hw

def padded (before : String) (zeros n : Nat) (after : String) : String :=
  before ++ String.ofList (List.replicate zeros '0' ++ Nat.toDigits 10 n) ++ after

theorem denotes_padded {before after : String} (hbefore : isBlankText before)
    (hafter : isBlankText after) (zeros n : Nat) : Denotes (padded before zeros n after) n := by
  refine denotes_iff.2 ⟨before, _, after, hbefore, hafter, ?_, rfl⟩
  rw [String.toList_ofList]
  exact writes_zeros_append zeros n

/-- A word after one more digit; none when the product or the sum has no word. -/
def pushDigit? {width : Nat} (n : BitVec width) (c : Char) : Option (BitVec width) :=
  let ten := BitVec.ofNat width 10
  let digit := BitVec.ofNat width (c.toNat - '0'.toNat)
  if n.umulOverflow ten then none
  else if (n * ten).uaddOverflow digit then none
  else some (n * ten + digit)

def gatherDigits {width : Nat} (n : BitVec width) : List Char → Except NumeralFault (BitVec width)
  | [] => .ok n
  | c :: cs =>
    if c.isDigit then
      match pushDigit? n c with
      | some m => gatherDigits m cs
      | none => .error .tooLarge
    else .error .badDigit

def gatherNumeral (width : Nat) : List Char → Except NumeralFault (BitVec width)
  | [] => .error .empty
  | ['+'] => .error .badDigit
  | '+' :: c :: cs => gatherDigits 0 (c :: cs)
  | c :: cs => gatherDigits 0 (c :: cs)

variable {width : Nat}

theorem digit_lt_ten (hc : c.isDigit) : c.toNat - '0'.toNat < 10 := by
  obtain ⟨hlow, hhigh⟩ := toNat_of_isDigit hc
  have hzero : '0'.toNat = 48 := rfl
  omega

/-- The checks let a digit pass exactly when the number with it has a word, and then the word is
that number's: neither the product nor the sum wraps. -/
theorem map_pushDigit? (hwidth : 4 ≤ width) (n : BitVec width) (hc : c.isDigit) :
    (pushDigit? n c).map BitVec.toNat =
      if pushDigit n.toNat c < 2 ^ width then some (pushDigit n.toNat c) else none := by
  have hroom : 2 ^ 4 ≤ 2 ^ width := Nat.pow_le_pow_right (by decide) hwidth
  have hlt := digit_lt_ten hc
  have hten : (BitVec.ofNat width 10).toNat = 10 := by
    rw [BitVec.toNat_ofNat, Nat.mod_eq_of_lt (by omega)]
  have hdigit : (BitVec.ofNat width (c.toNat - '0'.toNat)).toNat = c.toNat - '0'.toNat := by
    rw [BitVec.toNat_ofNat, Nat.mod_eq_of_lt (by omega)]
  rw [pushDigit?, pushDigit]
  generalize BitVec.ofNat width (c.toNat - '0'.toNat) = digit at hdigit
  generalize BitVec.ofNat width 10 = ten at hten
  by_cases hmul : n.umulOverflow ten
  · have hprod : 2 ^ width ≤ n.toNat * 10 := by
      rwa [BitVec.umulOverflow, decide_eq_true_eq, hten] at hmul
    rw [if_pos hmul, if_neg (by omega)]
    rfl
  · have hprod := BitVec.toNat_mul_of_not_umulOverflow hmul
    rw [hten] at hprod
    rw [if_neg hmul]
    by_cases hadd : (n * ten).uaddOverflow digit
    · have hsum : 2 ^ width ≤ n.toNat * 10 + (c.toNat - '0'.toNat) := by
        rwa [BitVec.uaddOverflow, decide_eq_true_eq, hprod, hdigit] at hadd
      rw [if_pos hadd, if_neg (by omega)]
      rfl
    · have hsum := BitVec.toNat_add_of_not_uaddOverflow hadd
      have hword := (n * ten + digit).isLt
      rw [hprod, hdigit] at hsum
      rw [if_neg hadd, Option.map_some, hsum, Nat.mul_comm, if_pos (by omega)]

theorem map_gatherDigits (hwidth : 4 ≤ width) (n : BitVec width) (cs : List Char) :
    (gatherDigits n cs).map BitVec.toNat = readDigits (2 ^ width - 1) n.toNat cs := by
  -- the word read so far has the value of the digits read so far, so the next digit is too large
  -- for the one exactly when it is too large for the other
  induction cs generalizing n with
  | nil => rfl
  | cons c cs ih =>
    rw [gatherDigits, readDigits]
    by_cases hc : c.isDigit
    · have hpush := map_pushDigit? hwidth n hc
      have hpos := Nat.two_pow_pos width
      rw [if_pos hc, if_pos hc]
      by_cases hlt : pushDigit n.toNat c < 2 ^ width
      · rw [if_pos hlt] at hpush
        obtain ⟨m, hm, hv⟩ := Option.map_eq_some_iff.1 hpush
        rw [hm, if_pos (by omega), ← hv]
        exact ih m
      · rw [if_neg hlt, Option.map_eq_none_iff] at hpush
        rw [hpush, if_neg (by omega)]
        rfl
    · rw [if_neg hc, if_neg hc]
      rfl

theorem map_gatherNumeral (hwidth : 4 ≤ width) (cs : List Char) :
    (gatherNumeral width cs).map BitVec.toNat = readNumeral (2 ^ width - 1) cs := by
  rw [gatherNumeral.eq_def]
  split
  · rfl
  · rfl
  · exact map_gatherDigits hwidth 0 _
  · next c cs hsign hplus =>
    rw [map_gatherDigits hwidth, readNumeral]
    · rfl
    · exact hsign
    · exact hplus

end HostRotation.Text
