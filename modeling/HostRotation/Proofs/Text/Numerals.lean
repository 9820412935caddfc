import Mathlib.Data.Nat.Digits.Defs
import HostRotation.Text.Blank
import HostRotation.Text.Numeral

namespace HostRotation.Text

def decimalValue (digits : List Char) : Nat :=
  Nat.ofDigits 10 (digits.reverse.map fun c => c.toNat - '0'.toNat)

theorem foldl_pushDigit_eq (n : Nat) (cs : List Char) :
    cs.foldl pushDigit n = 10 ^ cs.length * n + decimalValue cs := by
  induction cs generalizing n with
  | nil => simp [decimalValue]
  | cons c cs ih =>
    have hcons : decimalValue (c :: cs) =
        decimalValue cs + 10 ^ cs.length * (c.toNat - '0'.toNat) := by
      simp [decimalValue, Nat.ofDigits_append]
    rw [List.foldl_cons, ih, hcons, pushDigit, List.length_cons, pow_succ]
    ring

theorem digitsValue_eq_decimalValue (cs : List Char) : digitsValue cs = decimalValue cs := by
  rw [digitsValue, foldl_pushDigit_eq, Nat.mul_zero, Nat.zero_add]

/-- Characters that write a number: a run of digits, with a plus sign before it or not. -/
def Writes (cs : List Char) (n : Nat) : Prop :=
  ∃ digits, (cs = digits ∨ cs = '+' :: digits) ∧ digits ≠ [] ∧ (∀ c ∈ digits, c.isDigit) ∧
    decimalValue digits = n

/-- A text that writes a number when the blanks around it are disregarded. -/
def Denotes (s : String) (n : Nat) : Prop :=
  Writes (trim s).toList n

theorem Writes.chars {cs : List Char} {n : Nat} (h : Writes cs n) :
    ∀ c ∈ cs, c = '+' ∨ c.isDigit := by
  obtain ⟨digits, hcs, -, hdigits, -⟩ := h
  rcases hcs with rfl | rfl
  · exact fun c hc => .inr (hdigits c hc)
  · exact List.forall_mem_cons.2 ⟨.inl rfl, fun c hc => .inr (hdigits c hc)⟩

theorem Writes.unique {cs : List Char} {m n : Nat} (h : Writes cs m) (h' : Writes cs n) :
    m = n := by
  have signed {ds ds' : List Char} (hds : ∀ c ∈ ds, c.isDigit) (he : ds = '+' :: ds') : False := by
    subst he
    cases hds '+' List.mem_cons_self
  obtain ⟨digits, hcs, -, hdigits, rfl⟩ := h
  obtain ⟨digits', hcs', -, hdigits', rfl⟩ := h'
  rcases hcs with rfl | rfl
  · rcases hcs' with rfl | he
    · rfl
    · exact (signed hdigits he).elim
  · rcases hcs' with he | he
    · exact (signed hdigits' he.symm).elim
    · rw [List.cons.inj he |>.2]

theorem writes_toDigits (n : Nat) : Writes (Nat.toDigits 10 n) n := by
  refine ⟨_, .inl rfl, Nat.toDigits_ne_nil, fun c hc => isDigit_of_mem_toDigits hc, ?_⟩
  rw [← digitsValue_eq_decimalValue, digitsValue_toDigits]

@[simp] theorem trim_numeral (n : Nat) : trim (numeral n) = numeral n := by
  apply trim_eq_self
  intro c hc
  rw [toList_numeral] at hc
  exact isBlank_of_isDigit (isDigit_of_mem_toDigits hc)

theorem denotes_numeral (n : Nat) : Denotes (numeral n) n := by
  rw [Denotes, trim_numeral, toList_numeral]
  exact writes_toDigits n

theorem Denotes.unique {s : String} {m n : Nat} (h : Denotes s m) (h' : Denotes s n) : m = n :=
  Writes.unique h h'

theorem mem_trimChars {c : Char} {cs : List Char} (h : c ∈ cs) (hc : isBlank c = false) :
    c ∈ trimChars cs := by
  obtain ⟨before, after, hbefore, hafter, he⟩ := exists_blanks_around cs
  have hblank {ds : List Char} (hds : ∀ d ∈ ds, isBlank d) : c ∉ ds := by
    intro hmem
    rw [hds c hmem] at hc
    cases hc
  rw [he, List.mem_append, List.mem_append] at h
  exact (h.resolve_left (hblank hbefore)).resolve_right (hblank hafter)

theorem not_denotes {s : String} {c : Char} (h : c ∈ s.toList) (hb : isBlank c = false)
    (hp : c ≠ '+') (hd : c.isDigit = false) (n : Nat) : ¬Denotes s n := by
  intro hs
  have hmem : c ∈ (trim s).toList := by
    rw [toList_trim]
    exact mem_trimChars h hb
  rcases Writes.chars hs c hmem with he | hdigit
  · exact hp he
  · rw [hd] at hdigit
    cases hdigit

theorem readDigits_zero_eq_ok_iff {limit n : Nat} {digits : List Char} :
    readDigits limit 0 digits = .ok n ↔
      (∀ c ∈ digits, c.isDigit) ∧ decimalValue digits = n ∧ n ≤ limit := by
  rw [readDigits_eq_ok_iff (Nat.zero_le limit), ← digitsValue_eq_decimalValue, digitsValue]

theorem readNumeral_eq_ok_iff {limit n : Nat} {cs : List Char} :
    readNumeral limit cs = .ok n ↔ Writes cs n ∧ n ≤ limit := by
  constructor
  · intro h
    rw [readNumeral.eq_def] at h
    split at h
    · cases h
    · cases h
    · next c cs =>
      obtain ⟨hd, hv, hl⟩ := readDigits_zero_eq_ok_iff.1 h
      exact ⟨⟨c :: cs, .inr rfl, nofun, hd, hv⟩, hl⟩
    · next c cs _ _ =>
      obtain ⟨hd, hv, hl⟩ := readDigits_zero_eq_ok_iff.1 h
      exact ⟨⟨c :: cs, .inl rfl, nofun, hd, hv⟩, hl⟩
  · rintro ⟨⟨digits, hcs, hn, hd, hv⟩, hl⟩
    have hread := readDigits_zero_eq_ok_iff.2 ⟨hd, hv, hl⟩
    rcases hcs with rfl | rfl
    · rw [readNumeral_eq_readDigits hn hd, hread]
    · cases digits with
      | nil => exact absurd rfl hn
      | cons c cs => exact hread

/-- A word is read exactly from the texts that write its value. -/
theorem map_readNumeral_eq_ok_iff {α : Type} {ofNat : Nat → α} {toNat : α → Nat} {limit : Nat}
    (hofNat : ∀ w, ofNat (toNat w) = w) (htoNat : ∀ n ≤ limit, toNat (ofNat n) = n)
    (hlimit : ∀ w, toNat w ≤ limit) {cs : List Char} {w : α} :
    (readNumeral limit cs).map ofNat = .ok w ↔ Writes cs (toNat w) := by
  constructor
  · intro h
    cases hread : readNumeral limit cs with
    | error e =>
      rw [hread] at h
      cases h
    | ok n =>
      rw [hread] at h
      obtain ⟨hw, hn⟩ := readNumeral_eq_ok_iff.1 hread
      obtain rfl := Except.ok.inj h
      rwa [htoNat n hn]
  · intro hw
    rw [readNumeral_eq_ok_iff.2 ⟨hw, hlimit w⟩, Except.map, hofNat]

theorem readUInt64_eq_ok_iff {s : String} {n : UInt64} :
    readUInt64 s = .ok n ↔ Writes s.toList n.toNat :=
  map_readNumeral_eq_ok_iff (fun _ => UInt64.ofNat_toNat)
    (fun _ h => UInt64.toNat_ofNat_of_lt' (Nat.lt_of_le_pred (by decide) h))
    (fun w => Nat.le_sub_one_of_lt w.toNat_lt)

theorem readUInt16_eq_ok_iff {s : String} {n : UInt16} :
    readUInt16 s = .ok n ↔ Writes s.toList n.toNat :=
  map_readNumeral_eq_ok_iff (fun _ => UInt16.ofNat_toNat)
    (fun _ h => UInt16.toNat_ofNat_of_lt' (Nat.lt_of_le_pred (by decide) h))
    (fun w => Nat.le_sub_one_of_lt w.toNat_lt)

end HostRotation.Text
