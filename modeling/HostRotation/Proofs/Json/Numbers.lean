import HostRotation.Json.Number
import HostRotation.Proofs.Json.Tokens
import HostRotation.Proofs.Text.Numerals

namespace HostRotation.Json

theorem head?_toDigits_ne_zero {n : Nat} (hn : 0 < n) : (Nat.toDigits 10 n).head? ≠ some '0' := by
  induction n using Nat.strongRecOn with
  | ind n ih =>
    by_cases h : n < 10
    · rw [Nat.toDigits_of_lt_base h, List.head?_singleton, ne_eq, Option.some.injEq,
        Nat.digitChar_eq_zero]
      exact Nat.ne_of_gt hn
    · have h := Nat.le_of_not_lt h
      have hrest := ih (n / 10) (Nat.div_lt_self hn (by decide)) (Nat.div_pos h (by decide))
      rw [Nat.toDigits_of_base_le (by decide) h]
      cases hd : Nat.toDigits 10 (n / 10) with
      | nil => exact absurd hd Nat.toDigits_ne_nil
      | cons c cs => rwa [hd] at hrest

namespace NumberLiteral

theorem isWholePart_toDigits (n : Nat) : IsWholePart (Nat.toDigits 10 n) := by
  refine ⟨⟨Nat.toDigits_ne_nil, fun c hc => Text.isDigit_of_mem_toDigits hc⟩, fun h => ?_⟩
  rcases Nat.eq_zero_or_pos n with rfl | hn
  · rfl
  · exact absurd h (head?_toDigits_ne_zero hn)

theorem writes_toDigits (n : Nat) : Writes (Nat.toDigits 10 n) { whole := Nat.toDigits 10 n } := by
  have h := @Writes.parts false _ [] [] none none (isWholePart_toDigits n) .absent .absent
  simpa using h

theorem legible_toDigits (n : Nat) : Legible { whole := Nat.toDigits 10 n } := by
  have hwrites : Writes (render { whole := Nat.toDigits 10 n }) { whole := Nat.toDigits 10 n } := by
    simpa [render] using writes_toDigits n
  exact ⟨hwrites.chars, ofChars?_eq_some_iff.2 hwrites⟩

theorem mem_render_of_not_isWhole {l : NumberLiteral} (h : l.isWhole = false) :
    '.' ∈ l.render ∨ 'e' ∈ l.render := by
  rcases l with ⟨negative, whole, _ | ds, _ | ⟨s, es⟩⟩
  · cases h
  all_goals simp [render]

theorem mem_render_of_negative {l : NumberLiteral} (h : l.negative = true) : '-' ∈ l.render := by
  simp [render, h]

end NumberLiteral

namespace Number

theorem ofLiteral?_toDigits {n : Nat} (h : n < UInt64.size) :
    ofLiteral? { whole := Nat.toDigits 10 n } = some (.integer n) := by
  simp [ofLiteral?, NumberLiteral.isWhole, Text.digitsValue_toDigits, h]

@[simp] theorem literal_natCast (n : Nat) :
    (Number.integer n).literal = { whole := Nat.toDigits 10 n } := by
  simp [literal]

theorem unsigned?_literal (n : UInt64) :
    unsigned? (Number.integer n.toNat).literal = some n := by
  rw [literal_natCast, unsigned?, ofLiteral?_toDigits n.toNat_lt]
  exact congrArg some UInt64.ofNat_toNat

theorem isWhole_decimalLiteral (negative : Bool) (d : Decimal) :
    (decimalLiteral negative d).isWhole = false := by
  rw [decimalLiteral]
  split
  · exact Bool.and_false _
  · split <;> rfl

theorem isWhole_literal_real (negative : Bool) (x : Binary64) :
    (Number.real negative x).literal.isWhole = false := by
  rw [literal]
  split
  · rfl
  · exact isWhole_decimalLiteral negative x.shortest

theorem render_of_ofLiteral? {l : NumberLiteral} {n : Number} (h : ofLiteral? l = some n)
    (hl : ¬(l.isWhole ∧ ¬l.negative ∧ Text.digitsValue l.whole < UInt64.size)) :
    '-' ∈ n.render ∨ '.' ∈ n.render ∨ 'e' ∈ n.render := by
  rw [ofLiteral?, if_neg hl] at h
  split at h
  · next hneg =>
    obtain rfl := Option.some.inj h
    refine .inl (NumberLiteral.mem_render_of_negative ?_)
    rw [literal, decide_eq_true_eq]
    omega
  · obtain ⟨x, -, rfl⟩ := Option.map_eq_some_iff.1 h
    exact .inr (NumberLiteral.mem_render_of_not_isWhole (isWhole_literal_real _ x))

/-- Only a count of 64 bits has a text that denotes a number. -/
theorem not_denotes_render {l : NumberLiteral} {n : Number} (h : ofLiteral? l = some n)
    (hl : ¬(l.isWhole ∧ ¬l.negative ∧ Text.digitsValue l.whole < UInt64.size)) (m : Nat) :
    ¬Text.Denotes (String.ofList n.render) m := by
  have hmem {c : Char} (hc : c ∈ n.render) : c ∈ (String.ofList n.render).toList := by
    rwa [String.toList_ofList]
  rcases render_of_ofLiteral? h hl with hc | hc | hc
  · exact Text.not_denotes (hmem hc) (by decide) (by decide) (by decide) m
  · exact Text.not_denotes (hmem hc) (by decide) (by decide) (by decide) m
  · exact Text.not_denotes (hmem hc) (by decide) (by decide) (by decide) m

end Number
end HostRotation.Json
