import HostRotation.Proofs.Config.NumberSettings
import HostRotation.Proofs.Text.NumeralForms

namespace HostRotation
namespace NumberSetting

variable {s : NumberSetting} {text : String} {n : Nat} {e : ConfigError}

def read (s : NumberSetting) (text : String) : Except ConfigError Nat :=
  match s with
  | .timeout => (Config.readTimeout text).map fun t => t.1.toNat
  | .port => (Config.readPort text).map fun p => p.1.toNat

theorem read_eq_ok (hpos : 0 < n) (hn : n < s.bound) (h : Text.Denotes text n) :
    s.read text = .ok n := by
  cases s with
  | timeout =>
    obtain ⟨t, ht, rfl⟩ := Config.exists_uint64 hpos hn
    rw [read, Config.readTimeout_eq_ok ht h]
    rfl
  | port =>
    obtain ⟨p, hp, rfl⟩ := Config.exists_uint16 hpos hn
    rw [read, Config.readPort_eq_ok hp h]
    rfl

theorem read_eq_error (h : ¬Config.InRange s.bound text) : s.read text = .error (s.error text) := by
  cases s with
  | timeout =>
    rw [read, Config.readTimeout_eq_error h]
    rfl
  | port =>
    rw [read, Config.readPort_eq_error h]
    rfl

theorem read_eq_ok_iff : s.read text = .ok n ↔ Text.Denotes text n ∧ 0 < n ∧ n < s.bound := by
  constructor
  · intro h
    by_cases hr : Config.InRange s.bound text
    · obtain ⟨m, hpos, hm, hd⟩ := hr
      rw [read_eq_ok hpos hm hd] at h
      obtain rfl := Except.ok.inj h
      exact ⟨hd, hpos, hm⟩
    · rw [read_eq_error hr] at h
      cases h
  · rintro ⟨hd, hpos, hn⟩
    exact read_eq_ok hpos hn hd

theorem read_eq_error_iff : s.read text = .error e ↔
    Text.Defective s.bound (Text.trim text).toList ∧ e = s.error text := by
  rw [Text.defective_iff]
  constructor
  · intro h
    by_cases hr : Config.InRange s.bound text
    · obtain ⟨m, hpos, hm, hd⟩ := hr
      rw [read_eq_ok hpos hm hd] at h
      cases h
    · rw [read_eq_error hr] at h
      exact ⟨hr, (Except.error.inj h).symm⟩
  · rintro ⟨hr, rfl⟩
    exact read_eq_error hr

def width : NumberSetting → Nat
  | .timeout => 64
  | .port => 16

theorem bound_eq (s : NumberSetting) : s.bound = 2 ^ s.width := by
  cases s <;> rfl

theorem four_le_width (s : NumberSetting) : 4 ≤ s.width := by
  cases s <;> decide

/-- Reads the setting with its digits gathered in a word. -/
def gather (s : NumberSetting) (text : String) : Except ConfigError Nat :=
  match Text.gatherNumeral s.width (Text.trim text).toList with
  | .ok w => if 0 < w.toNat then .ok w.toNat else .error (s.error text)
  | .error _ => .error (s.error text)

theorem gather_eq_read (s : NumberSetting) (text : String) : s.gather text = s.read text := by
  have hread := Text.map_gatherNumeral s.four_le_width (Text.trim text).toList
  rw [gather]
  cases hw : Text.gatherNumeral s.width (Text.trim text).toList with
  | ok w =>
    rw [hw] at hread
    obtain ⟨hd, -⟩ := Text.readNumeral_eq_ok_iff.1 hread.symm
    by_cases hpos : 0 < w.toNat
    · exact (if_pos hpos).trans (read_eq_ok hpos (s.bound_eq ▸ w.isLt) hd).symm
    · refine (if_neg hpos).trans (read_eq_error ?_).symm
      rintro ⟨n, hn, -, hd'⟩
      exact hpos (hd.unique hd' ▸ hn)
  | error e =>
    rw [hw] at hread
    refine (read_eq_error ?_).symm
    rintro ⟨n, -, hn, hd⟩
    rw [bound_eq] at hn
    cases hread.trans (Text.readNumeral_eq_ok_iff.2 ⟨hd, Nat.le_sub_one_of_lt hn⟩)

/-- A setting is read from the texts that denote a number in its range and from no other, and is
that number; a text denotes a number when it is a numeral but for blanks at its ends. Every other
text is refused, as it stands, for one of the defects of numerals. Words that check each product and
sum for overflow read the same, and zeros in front of a number do not matter. -/
theorem reads_numerals (s : NumberSetting) (text : String) :
    (∀ n, s.read text = .ok n ↔ Text.Denotes text n ∧ 0 < n ∧ n < s.bound) ∧
    (∀ n, Text.Denotes text n ↔ Text.HoldsNumeral text n) ∧
    (∀ e, s.read text = .error e ↔
      Text.Defective s.bound (Text.trim text).toList ∧ e = s.error text) ∧
    s.gather text = s.read text ∧
    ∀ n before zeros after, 0 < n → n < s.bound → Text.isBlankText before →
      Text.isBlankText after → text = Text.padded before zeros n after → s.read text = .ok n := by
  refine ⟨fun n => read_eq_ok_iff, fun n => Text.denotes_iff, fun e => read_eq_error_iff,
    s.gather_eq_read text, ?_⟩
  intro n before zeros after hpos hn hbefore hafter he
  rw [he]
  exact read_eq_ok hpos hn (Text.denotes_padded hbefore hafter zeros n)

/-- The greatest timeout is read among blanks and after zeros; the number after it is refused, and
so is a port with a blank between its digits. -/
theorem reads_numerals_limit :
    0 < 18446744073709551615 ∧ 18446744073709551615 < timeout.bound ∧
    Text.isBlankText "\u3000" ∧ Text.isBlankText "\r\n" ∧
    Text.padded "\u3000" 2 18446744073709551615 "\r\n" = "\u30000018446744073709551615\r\n" ∧
    timeout.read "\u30000018446744073709551615\r\n" = .ok 18446744073709551615 ∧
    timeout.gather "18446744073709551616" = .error (.badTimeout "18446744073709551616") ∧
    port.read " 2 2" = .error (.badPort " 2 2") := by
  have hbefore : Text.isBlankText "\u3000" := by decide
  have hafter : Text.isBlankText "\r\n" := by decide
  have hpadded : Text.padded "\u3000" 2 18446744073709551615 "\r\n" =
      "\u30000018446744073709551615\r\n" := by decide
  obtain ⟨-, -, -, -, hread⟩ := reads_numerals .timeout "\u30000018446744073709551615\r\n"
  refine ⟨by decide, by decide, hbefore, hafter, hpadded,
    hread _ _ _ _ (by decide) (by decide) hbefore hafter hpadded.symm, ?_, ?_⟩
  · obtain ⟨-, -, herror, hgather, -⟩ := reads_numerals .timeout "18446744073709551616"
    rw [hgather, herror]
    exact ⟨.outOfRange (Text.denotes_numeral 18446744073709551616) (.inr (by decide)), rfl⟩
  · obtain ⟨-, -, herror, -⟩ := reads_numerals .port " 2 2"
    rw [herror]
    exact ⟨.stray ['2'] ['2'] rfl nofun, rfl⟩

end NumberSetting
end HostRotation
