import Mathlib.Algebra.Order.Field.Rat
import Mathlib.Tactic.NormNum
import Mathlib.Tactic.Positivity
import HostRotation.Binary64

namespace HostRotation
namespace Binary64

variable {num den num' den' k : Nat}

theorem div_le_roundDiv (num den : Nat) : num / den ≤ roundDiv num den := by
  simp only [roundDiv]
  split
  · exact Nat.le_refl _
  · exact Nat.le_succ _

theorem roundDiv_le_succ (num den : Nat) : roundDiv num den ≤ num / den + 1 := by
  simp only [roundDiv]
  split
  · exact Nat.le_succ _
  · exact Nat.le_refl _

theorem roundDiv_one (num : Nat) : roundDiv num 1 = num := by
  simp [roundDiv, Nat.mod_one]

theorem div_le_div_of_mul_le (hd : 0 < den) (hd' : 0 < den') (h : num * den' ≤ num' * den) :
    num / den ≤ num' / den' := by
  rw [Nat.le_div_iff_mul_le hd']
  refine Nat.le_of_mul_le_mul_right ?_ hd
  calc num / den * den' * den = num / den * den * den' := Nat.mul_right_comm _ _ _
    _ ≤ num * den' := Nat.mul_le_mul_right _ (Nat.div_mul_le_self num den)
    _ ≤ num' * den := h

theorem mod_mul_le (hq : num / den = num' / den')
    (h : num * den' ≤ num' * den) : num % den * den' ≤ num' % den' * den := by
  have hn := Nat.div_add_mod num den
  have hn' := Nat.div_add_mod num' den'
  rw [← hn, ← hn', ← hq, Nat.add_mul, Nat.add_mul] at h
  have hcomm : den * (num / den) * den' = den' * (num / den) * den := by ac_rfl
  omega

theorem roundDiv_mono (hd : 0 < den) (hd' : 0 < den') (h : num * den' ≤ num' * den) :
    roundDiv num den ≤ roundDiv num' den' := by
  rcases Nat.lt_or_eq_of_le (div_le_div_of_mul_le hd hd' h) with hlt | heq
  · calc roundDiv num den ≤ num / den + 1 := roundDiv_le_succ num den
      _ ≤ num' / den' := hlt
      _ ≤ roundDiv num' den' := div_le_roundDiv num' den'
  · -- equal whole parts: the remainders decide
    have hrest := mod_mul_le heq h
    simp only [roundDiv, ← heq]
    split
    · split
      · exact Nat.le_refl _
      · exact Nat.le_succ _
    · next hup =>
      rw [if_neg]
      intro hdown
      apply hup
      have hle : 2 * (num % den) * den' ≤ 2 * (num' % den') * den := by
        rw [Nat.mul_assoc, Nat.mul_assoc]
        exact Nat.mul_le_mul_left 2 hrest
      rcases hdown with hlt | ⟨he, heven⟩
      · left
        refine Nat.lt_of_mul_lt_mul_right (a := den') (hle.trans_lt ?_)
        rw [Nat.mul_comm den den']
        exact Nat.mul_lt_mul_of_pos_right hlt hd
      · rw [he, Nat.mul_comm den' den] at hle
        rcases Nat.lt_or_eq_of_le (Nat.le_of_mul_le_mul_right hle hd') with hlt | heq'
        · exact .inl hlt
        · exact .inr ⟨heq', heven⟩

theorem roundDiv_le (hd : 0 < den) (h : num ≤ k * den) : roundDiv num den ≤ k := by
  have hmono : roundDiv num den ≤ roundDiv k 1 :=
    roundDiv_mono hd Nat.one_pos (by rwa [Nat.mul_one])
  rwa [roundDiv_one] at hmono

theorem le_roundDiv (hd : 0 < den) (h : k * den ≤ num) : k ≤ roundDiv num den := by
  have hmono : roundDiv k 1 ≤ roundDiv num den :=
    roundDiv_mono Nat.one_pos hd (by rwa [Nat.mul_one])
  rwa [roundDiv_one] at hmono

/-- The pattern of the number nearest to a quotient of units, if there is one. -/
def pattern (num den : Nat) : Nat :=
  (scaleOf num den <<< 52) + roundDiv num (den <<< scaleOf num den)

theorem ofUnits?_of_lt (h : pattern num den < 2047 <<< 52) :
    ofUnits? num den = some { bits := pattern num den, finite := h } :=
  dif_pos h

theorem shiftLeft_pos (hd : 0 < den) (s : Nat) : 0 < den <<< s := by
  rw [Nat.shiftLeft_eq]
  positivity

theorem pattern_le (hd : 0 < den) : pattern num den ≤ (scaleOf num den + 2) * 2 ^ 52 := by
  have hq : num / den < 2 ^ (scaleOf num den + 53) := by
    have hlog := Nat.lt_log2_self (n := num / den)
    refine hlog.trans_le (Nat.pow_le_pow_right (by decide) ?_)
    simp only [scaleOf]
    omega
  have hnum : num ≤ 2 ^ 53 * (den <<< scaleOf num den) := by
    have hlt := (Nat.div_lt_iff_lt_mul hd).1 hq
    rw [Nat.shiftLeft_eq]
    calc num ≤ 2 ^ (scaleOf num den + 53) * den := hlt.le
      _ = 2 ^ 53 * (den * 2 ^ scaleOf num den) := by rw [Nat.pow_add]; ac_rfl
  have hround := roundDiv_le (shiftLeft_pos hd _) hnum
  rw [pattern, Nat.shiftLeft_eq, Nat.add_mul]
  omega

theorem le_pattern (hd : 0 < den) (hs : 0 < scaleOf num den) :
    (scaleOf num den + 1) * 2 ^ 52 ≤ pattern num den := by
  have hlog : (num / den).log2 = scaleOf num den + 52 := by
    simp only [scaleOf] at hs ⊢
    omega
  have hne : num / den ≠ 0 := by
    intro h0
    rw [h0, Nat.log2_zero] at hlog
    omega
  have hq : 2 ^ (scaleOf num den + 52) ≤ num / den := by
    rw [← hlog]
    exact Nat.log2_self_le hne
  have hnum : 2 ^ 52 * (den <<< scaleOf num den) ≤ num := by
    rw [Nat.shiftLeft_eq]
    calc 2 ^ 52 * (den * 2 ^ scaleOf num den) = 2 ^ (scaleOf num den + 52) * den := by
          rw [Nat.pow_add]
          ac_rfl
      _ ≤ num := (Nat.le_div_iff_mul_le hd).1 hq
  have hround := le_roundDiv (shiftLeft_pos hd _) hnum
  rw [pattern, Nat.shiftLeft_eq, Nat.add_mul]
  omega

theorem scaleOf_mono (hd : 0 < den) (hd' : 0 < den') (h : num * den' ≤ num' * den) :
    scaleOf num den ≤ scaleOf num' den' := by
  have hq := div_le_div_of_mul_le hd hd' h
  apply Nat.sub_le_sub_right
  by_cases h0 : num / den = 0
  · rw [h0, Nat.log2_zero]
    exact Nat.zero_le _
  · have h0' : num' / den' ≠ 0 := ((Nat.pos_of_ne_zero h0).trans_le hq).ne'
    rw [Nat.le_log2 h0']
    exact (Nat.log2_self_le h0).trans hq

theorem pattern_mono (hd : 0 < den) (hd' : 0 < den') (h : num * den' ≤ num' * den) :
    pattern num den ≤ pattern num' den' := by
  rcases Nat.lt_or_eq_of_le (scaleOf_mono hd hd' h) with hlt | heq
  · -- another scale: between the two patterns is the least one of the larger scale
    calc pattern num den ≤ (scaleOf num den + 2) * 2 ^ 52 := pattern_le hd
      _ ≤ (scaleOf num' den' + 1) * 2 ^ 52 := Nat.mul_le_mul_right _ (by omega)
      _ ≤ pattern num' den' := le_pattern hd' (by omega)
  · rw [pattern, pattern, ← heq]
    refine Nat.add_le_add_left (roundDiv_mono (shiftLeft_pos hd _) (shiftLeft_pos hd' _) ?_) _
    rw [Nat.shiftLeft_eq, Nat.shiftLeft_eq, ← Nat.mul_assoc, ← Nat.mul_assoc]
    exact Nat.mul_le_mul_right _ h

theorem scale_eq (x : Binary64) : x.scale = x.bits / 2 ^ 52 - 1 := by
  rw [scale, Nat.shiftRight_eq_div_pow]

theorem significand_eq (x : Binary64) : x.significand = x.bits - x.scale * 2 ^ 52 :=
  congrArg (x.bits - ·) (Nat.shiftLeft_eq _ _)

theorem units_eq (x : Binary64) : x.units = x.significand * 2 ^ x.scale :=
  Nat.shiftLeft_eq _ _

theorem significand_lt (x : Binary64) : x.significand < 2 ^ 53 := by
  have hscale := x.scale_eq
  have hsignificand := x.significand_eq
  omega

theorem le_significand {x : Binary64} (h : 0 < x.scale) : 2 ^ 52 ≤ x.significand := by
  have hscale := x.scale_eq
  have hsignificand := x.significand_eq
  omega

theorem units_mono {x y : Binary64} (h : x.bits ≤ y.bits) : x.units ≤ y.units := by
  have hscale : x.scale ≤ y.scale := by
    rw [scale_eq, scale_eq]
    omega
  rw [units_eq, units_eq]
  rcases Nat.lt_or_eq_of_le hscale with hlt | heq
  · calc x.significand * 2 ^ x.scale ≤ 2 ^ 53 * 2 ^ x.scale :=
          Nat.mul_le_mul_right _ x.significand_lt.le
      _ = 2 ^ 52 * 2 ^ (x.scale + 1) := by rw [← Nat.pow_add, ← Nat.pow_add]; congr 1; omega
      _ ≤ 2 ^ 52 * 2 ^ y.scale := Nat.mul_le_mul_left _ (Nat.pow_le_pow_right (by decide) hlt)
      _ ≤ y.significand * 2 ^ y.scale := Nat.mul_le_mul_right _ (le_significand (by omega))
  · rw [← heq]
    refine Nat.mul_le_mul_right _ ?_
    rw [significand_eq, significand_eq, ← heq]
    exact Nat.sub_le_sub_right h _

def toRat (x : Binary64) : ℚ :=
  x.units / 2 ^ 1074

theorem toRat_nonneg (x : Binary64) : 0 ≤ x.toRat := by
  rw [toRat]
  positivity

theorem toRat_eq_div {x : Binary64} {n d : Nat} (hd : 0 < d) (h : x.units * d = n * 2 ^ 1074) :
    x.toRat = n / d := by
  have hcast := congrArg (Nat.cast : ℕ → ℚ) h
  rw [Nat.cast_mul, Nat.cast_mul, Nat.cast_pow, Nat.cast_ofNat] at hcast
  rw [toRat, div_eq_div_iff (by positivity) (by positivity), hcast]

theorem pattern_ofNat_mono {n m : Nat} (h : n ≤ m) :
    pattern (n <<< 1074) 1 ≤ pattern (m <<< 1074) 1 := by
  refine pattern_mono Nat.one_pos Nat.one_pos ?_
  rw [Nat.shiftLeft_eq, Nat.shiftLeft_eq]
  exact Nat.mul_le_mul_right _ (Nat.mul_le_mul_right _ h)

theorem exists_ofNat? {n : Nat} (h : n < 2 ^ 64) :
    ∃ x, ofNat? n = some x ∧ x.bits = pattern (n <<< 1074) 1 := by
  have hmax : pattern (2 ^ 64 <<< 1074) 1 < 2047 <<< 52 := by decide +kernel
  exact ⟨_, ofUnits?_of_lt ((pattern_ofNat_mono h.le).trans_lt hmax), rfl⟩

def one : Binary64 :=
  { bits := 1023 <<< 52 }

theorem units_one : one.units = 2 ^ 1074 := by
  decide +kernel

theorem bits_one : one.bits = pattern (1 <<< 1074) 1 := by
  decide +kernel

theorem toRat_le_one {x : Binary64} (h : x.bits ≤ one.bits) : x.toRat ≤ 1 := by
  have hunits := units_mono h
  rw [units_one] at hunits
  rw [toRat, div_le_one (by positivity)]
  exact_mod_cast hunits

theorem shiftLeft_mul_le {n m : Nat} (h : n ≤ m) (k : Nat) : n <<< k * 1 ≤ 1 <<< k * m := by
  rw [Nat.shiftLeft_eq, Nat.shiftLeft_eq, Nat.mul_one, Nat.one_mul, Nat.mul_comm]
  exact Nat.mul_le_mul_left _ h

theorem exists_div?_ofNat? {n m : Nat} (h : n ≤ m) (hm : 0 < m) (hlt : m < 2 ^ 64) :
    ∃ a b x, ofNat? n = some a ∧ ofNat? m = some b ∧ a.div? b = some x ∧ x.toRat ≤ 1 := by
  obtain ⟨a, ha, hbits⟩ := exists_ofNat? (h.trans_lt hlt)
  obtain ⟨b, hb, hbits'⟩ := exists_ofNat? hlt
  have hab : a.units ≤ b.units := by
    apply units_mono
    rw [hbits, hbits']
    exact pattern_ofNat_mono h
  have hpos : 0 < b.units := by
    have hone : one.bits ≤ b.bits := by
      rw [hbits', bits_one]
      exact pattern_ofNat_mono hm
    have hunits : 0 < one.units := by
      rw [units_one]
      positivity
    exact hunits.trans_le (units_mono hone)
  have hle : pattern (a.units <<< 1074) b.units ≤ one.bits := by
    rw [bits_one]
    exact pattern_mono hpos Nat.one_pos (shiftLeft_mul_le hab 1074)
  refine ⟨a, b, _, ha, hb, ?_, toRat_le_one (x := ⟨_, hle.trans_lt one.finite⟩) hle⟩
  rw [div?, if_neg hpos.ne', ofQuotient?, ofUnits?_of_lt]

end Binary64
end HostRotation
