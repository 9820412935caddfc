import Mathlib.Algebra.Order.Field.Rat
import Mathlib.Tactic.Linarith
import Mathlib.Tactic.Ring
import HostRotation.Binary64.Shortest
import HostRotation.Proofs.Binary64.Rounding

namespace HostRotation.Binary64

/-- The least value that is too large to be rounded to a finite number. -/
def limit : ℚ :=
  2 ^ 1024 - 2 ^ 970

/-- A value is rounded to a number: no other is nearer to it, and one that is as near is odd. -/
structure Nearest (x : Binary64) (q : ℚ) : Prop where
  lt_limit : q < limit
  le : ∀ y : Binary64, |q - x.toRat| ≤ |q - y.toRat|
  even : ∀ y : Binary64, y ≠ x → |q - x.toRat| = |q - y.toRat| → x.bits % 2 = 0

variable {x y : Binary64} {q : ℚ}

/-! ### Neighbours -/

theorem ext_bits (h : x.bits = y.bits) : x = y := by
  cases x
  cases y
  cases h
  rfl

theorem bits_pos (hx : x ≠ zero) : 0 < x.bits := by
  apply Nat.pos_of_ne_zero
  intro h
  exact hx (ext_bits h)

theorem units_succ (h : y.bits = x.bits + 1) : y.units = x.units + 2 ^ x.scale := by
  have hx := x.scale_eq
  have hy := y.scale_eq
  have hsx := x.significand_eq
  have hsy := y.significand_eq
  have hlt := x.significand_lt
  have hcases : y.scale = x.scale ∧ y.significand = x.significand + 1 ∨
      y.scale = x.scale + 1 ∧ x.significand + 1 = 2 ^ 53 ∧ y.significand = 2 ^ 52 := by
    omega
  rcases hcases with ⟨hscale, hsignificand⟩ | ⟨hscale, hfull, hsignificand⟩
  · rw [units_eq, units_eq, hscale, hsignificand, Nat.add_mul, Nat.one_mul]
  · calc y.units = 2 ^ 52 * 2 ^ (x.scale + 1) := by rw [units_eq, hscale, hsignificand]
      _ = (x.significand + 1) * 2 ^ x.scale := by
        rw [hfull, Nat.pow_succ (m := x.scale)]
        omega
      _ = x.units + 2 ^ x.scale := by rw [units_eq, Nat.add_mul, Nat.one_mul]

theorem units_lt (h : x.bits < y.bits) : x.units < y.units := by
  have hfinite : x.bits + 1 < 2047 <<< 52 := Nat.lt_of_le_of_lt h y.finite
  have hsucc : (Binary64.mk (x.bits + 1) hfinite).units = x.units + 2 ^ x.scale := units_succ rfl
  have hle : (Binary64.mk (x.bits + 1) hfinite).units ≤ y.units := units_mono h
  have hpos : 0 < 2 ^ x.scale := Nat.two_pow_pos _
  omega

theorem toRat_lt (h : x.bits < y.bits) : x.toRat < y.toRat := by
  rw [toRat, toRat, div_lt_div_iff_of_pos_right (by positivity)]
  exact_mod_cast units_lt h

theorem scale_pred (h : x.bits = y.bits + 1) :
    y.scale = if x.scale = 0 ∨ 2 ^ 52 < x.significand then x.scale else x.scale - 1 := by
  have hx := x.scale_eq
  have hy := y.scale_eq
  have hsx := x.significand_eq
  split
  · omega
  · omega

theorem fst_roundingBounds (h : x.bits = y.bits + 1) :
    x.roundingBounds.1 = y.units + x.units := by
  have hbelow : (if x.scale = 0 ∨ 1 <<< 52 < x.significand then 1 <<< x.scale
      else 1 <<< (x.scale - 1)) = 2 ^ y.scale := by
    rw [scale_pred h, apply_ite (2 ^ ·), Nat.one_shiftLeft, Nat.one_shiftLeft, Nat.one_shiftLeft]
  have hbounds : x.roundingBounds.1 = 2 * x.units - 2 ^ y.scale :=
    congrArg (2 * x.units - ·) hbelow
  have hunits := units_succ h
  omega

theorem snd_roundingBounds (x : Binary64) : x.roundingBounds.2 = 2 * x.units + 2 ^ x.scale :=
  congrArg (2 * x.units + ·) (Nat.one_shiftLeft x.scale)

theorem snd_roundingBounds_eq (h : y.bits = x.bits + 1) :
    x.roundingBounds.2 = x.units + y.units := by
  have hunits := units_succ h
  rw [snd_roundingBounds]
  omega

def greatest : Binary64 where
  bits := 2047 <<< 52 - 1
  finite := by decide

theorem units_greatest : greatest.units = 9007199254740991 * 2 ^ 2045 := by
  decide +kernel

def pred (x : Binary64) : Binary64 where
  bits := x.bits - 1
  finite := Nat.lt_of_le_of_lt (Nat.sub_le _ _) x.finite

theorem bits_pred (hx : x ≠ zero) : x.bits = x.pred.bits + 1 :=
  (Nat.sub_add_cancel (bits_pos hx)).symm

theorem eq_greatest_or_exists_succ (x : Binary64) :
    x = greatest ∨ ∃ y : Binary64, y.bits = x.bits + 1 := by
  by_cases h : x.bits + 1 < 2047 <<< 52
  · exact .inr ⟨⟨x.bits + 1, h⟩, rfl⟩
  · left
    apply ext_bits
    have hlt := x.finite
    change x.bits = 2047 <<< 52 - 1
    omega

theorem toRat_mono (h : x.bits ≤ y.bits) : x.toRat ≤ y.toRat := by
  rcases Nat.lt_or_eq_of_le h with hlt | heq
  · exact (toRat_lt hlt).le
  · rw [ext_bits heq]

/-! ### The values halfway to the neighbours -/

/-- The least value that is rounded to a number, or the greatest that no longer is. -/
def low (x : Binary64) : ℚ :=
  x.roundingBounds.1 / 2 ^ 1075

/-- The greatest value that is rounded to a number, or the least that no longer is. -/
def high (x : Binary64) : ℚ :=
  x.roundingBounds.2 / 2 ^ 1075

theorem cast_div_eq (n m : Nat) :
    ((n + m : Nat) : ℚ) / 2 ^ 1075 = (n / 2 ^ 1074 + m / 2 ^ 1074) / 2 := by
  rw [Nat.cast_add, ← add_div, div_div, ← pow_succ]

theorem low_eq (h : x.bits = y.bits + 1) : x.low = (y.toRat + x.toRat) / 2 := by
  rw [low, fst_roundingBounds h, cast_div_eq, toRat, toRat]

theorem high_eq (h : y.bits = x.bits + 1) : x.high = (x.toRat + y.toRat) / 2 := by
  rw [high, snd_roundingBounds_eq h, cast_div_eq, toRat, toRat]

theorem high_greatest : greatest.high = limit := by
  have hscale : greatest.scale = 2045 := by decide +kernel
  have hpow : (2 : ℚ) ^ 2099 = 2 ^ 54 * 2 ^ 2045 := by rw [← pow_add]
  rw [high, div_eq_iff (by positivity), snd_roundingBounds, units_greatest, hscale, limit, sub_mul,
    ← pow_add, ← pow_add, hpow]
  simp only [Nat.cast_add, Nat.cast_mul, Nat.cast_pow, Nat.cast_ofNat]
  generalize (2 : ℚ) ^ 2045 = t
  linarith

theorem toRat_lt_high (x : Binary64) : x.toRat < x.high := by
  have hlt : 2 * x.units < x.roundingBounds.2 := by
    rw [snd_roundingBounds]
    exact Nat.lt_add_of_pos_right (Nat.two_pow_pos _)
  have hcast : (x.units : ℚ) / 2 ^ 1074 = (2 * x.units : Nat) / 2 ^ 1075 := by
    rw [pow_succ' 2 1074, Nat.cast_mul, Nat.cast_ofNat, mul_div_mul_left _ _ (by norm_num)]
  rw [toRat, high, hcast]
  exact div_lt_div_of_pos_right (Nat.cast_lt.2 hlt) (by positivity)

theorem low_lt_toRat (hx : x ≠ zero) : x.low < x.toRat := by
  have hlt : x.pred.toRat < x.toRat := toRat_lt (by have := bits_pred hx; omega)
  rw [low_eq (bits_pred hx)]
  linarith

theorem toRat_lt_limit (y : Binary64) : y.toRat < limit := by
  have hle : y.toRat ≤ greatest.toRat := toRat_mono (Nat.le_sub_one_of_lt y.finite)
  rw [← high_greatest]
  exact hle.trans_lt greatest.toRat_lt_high

/-! ### Distances -/

theorem abs_sub_le_iff_of_lt {a b : ℚ} (h : a < b) : |q - b| ≤ |q - a| ↔ (a + b) / 2 ≤ q := by
  rw [← sq_le_sq]
  constructor
  · intro hle
    nlinarith
  · intro hle
    nlinarith

theorem abs_sub_le_iff_of_gt {a b : ℚ} (h : a < b) : |q - a| ≤ |q - b| ↔ q ≤ (a + b) / 2 := by
  rw [← sq_le_sq]
  constructor
  · intro hle
    nlinarith
  · intro hle
    nlinarith

theorem abs_sub_eq_iff {a b : ℚ} (h : a < b) : |q - b| = |q - a| ↔ (a + b) / 2 = q := by
  rw [le_antisymm_iff, le_antisymm_iff, abs_sub_le_iff_of_lt h, abs_sub_le_iff_of_gt h]

/-! ### The values between the bounds -/

/-- A value between the bounds of a number, or on one of them if the number is even. -/
def Between (x : Binary64) (q : ℚ) : Prop :=
  if x.bits % 2 = 0 then x.low ≤ q ∧ q ≤ x.high else x.low < q ∧ q < x.high

theorem Between.le (h : x.Between q) : x.low ≤ q ∧ q ≤ x.high := by
  rw [Between] at h
  split at h
  · exact h
  · exact ⟨h.1.le, h.2.le⟩

theorem Between.even (h : x.Between q) (hq : x.low = q ∨ q = x.high) : x.bits % 2 = 0 := by
  rw [Between] at h
  split at h
  · assumption
  · rcases hq with hq | hq
    · exact absurd hq h.1.ne
    · exact absurd hq h.2.ne

theorem between_of_le (h : x.low ≤ q ∧ q ≤ x.high)
    (heven : x.low = q ∨ q = x.high → x.bits % 2 = 0) : x.Between q := by
  rw [Between]
  split
  · exact h
  · next hodd =>
    exact ⟨lt_of_le_of_ne h.1 fun he => hodd (heven (.inl he)),
      lt_of_le_of_ne h.2 fun he => hodd (heven (.inr he))⟩

theorem between_of_lt (hlow : x.low < q) (hhigh : q < x.high) : x.Between q :=
  between_of_le ⟨hlow.le, hhigh.le⟩ fun h => h.elim (absurd · hlow.ne) (absurd · hhigh.ne)

theorem Nearest.between (hx : x ≠ zero) (h : x.Nearest q) : x.Between q := by
  have hpred := bits_pred hx
  have hlt : x.pred.toRat < x.toRat := toRat_lt (by omega)
  have hlow : x.low ≤ q := by
    rw [low_eq hpred, ← abs_sub_le_iff_of_lt hlt]
    exact h.le x.pred
  have heven : x.low = q → x.bits % 2 = 0 := by
    rw [low_eq hpred, ← abs_sub_eq_iff hlt]
    apply h.even x.pred
    intro he
    rw [he] at hlt
    exact lt_irrefl _ hlt
  rcases x.eq_greatest_or_exists_succ with rfl | ⟨y, hy⟩
  · have hhigh : q < greatest.high := high_greatest ▸ h.lt_limit
    exact between_of_le ⟨hlow, hhigh.le⟩ fun hq => hq.elim heven fun he => absurd he hhigh.ne
  · have hlt' : x.toRat < y.toRat := toRat_lt (by omega)
    have hhigh : q ≤ x.high := by
      rw [high_eq hy, ← abs_sub_le_iff_of_gt hlt']
      exact h.le y
    refine between_of_le ⟨hlow, hhigh⟩ fun hq => hq.elim heven fun he => ?_
    rw [high_eq hy, eq_comm, ← abs_sub_eq_iff hlt', eq_comm] at he
    refine h.even y ?_ he
    rintro rfl
    exact lt_irrefl _ hlt'

theorem Between.lt_limit (h : x.Between q) : q < limit := by
  rcases x.eq_greatest_or_exists_succ with rfl | ⟨y, hy⟩
  · have hodd : ¬greatest.bits % 2 = 0 := by decide
    rw [Between, if_neg hodd, high_greatest] at h
    exact h.2
  · have hhigh := h.le.2
    rw [high_eq hy] at hhigh
    linarith [x.toRat_lt_limit, y.toRat_lt_limit]

theorem Between.of_lt (h : x.Between q) (hlt : y.bits < x.bits) :
    (y.toRat + x.toRat) / 2 ≤ q ∧ ((y.toRat + x.toRat) / 2 = q → x.bits % 2 = 0) := by
  have hx : x ≠ zero := by
    rintro rfl
    exact Nat.not_lt_zero _ hlt
  have hpred := bits_pred hx
  have hle : y.toRat ≤ x.pred.toRat := toRat_mono (by omega)
  have hlow := h.le.1
  rw [low_eq hpred] at hlow
  refine ⟨by linarith, fun he => h.even (.inl ?_)⟩
  rw [low_eq hpred]
  linarith

theorem Between.of_gt (h : x.Between q) (hlt : x.bits < y.bits) :
    q ≤ (x.toRat + y.toRat) / 2 ∧ ((x.toRat + y.toRat) / 2 = q → x.bits % 2 = 0) := by
  obtain ⟨z, hz⟩ : ∃ z : Binary64, z.bits = x.bits + 1 :=
    ⟨⟨x.bits + 1, Nat.lt_of_le_of_lt hlt y.finite⟩, rfl⟩
  have hle : z.toRat ≤ y.toRat := toRat_mono (by omega)
  have hhigh := h.le.2
  rw [high_eq hz] at hhigh
  refine ⟨by linarith, fun he => h.even (.inr ?_)⟩
  rw [high_eq hz]
  linarith

theorem Between.nearest (h : x.Between q) : x.Nearest q := by
  refine ⟨h.lt_limit, fun y => ?_, fun y hne he => ?_⟩
  · rcases Nat.lt_trichotomy y.bits x.bits with hlt | heq | hgt
    · exact (abs_sub_le_iff_of_lt (toRat_lt hlt)).2 (h.of_lt hlt).1
    · rw [ext_bits heq]
    · exact (abs_sub_le_iff_of_gt (toRat_lt hgt)).2 (h.of_gt hgt).1
  · rcases Nat.lt_trichotomy y.bits x.bits with hlt | heq | hgt
    · exact (h.of_lt hlt).2 ((abs_sub_eq_iff (toRat_lt hlt)).1 he)
    · exact absurd (ext_bits heq) hne
    · exact (h.of_gt hgt).2 ((abs_sub_eq_iff (toRat_lt hgt)).1 he.symm)

/-- The values that are rounded to a number are those between its bounds. -/
theorem nearest_iff (hx : x ≠ zero) : x.Nearest q ↔ x.Between q :=
  ⟨Nearest.between hx, Between.nearest⟩

theorem Nearest.closer {q' : ℚ} (h : x.Nearest q)
    (hq : q ≤ q' ∧ q' ≤ x.toRat ∨ x.toRat ≤ q' ∧ q' ≤ q) : x.Nearest q' := by
  have hsum : |q - x.toRat| = |q - q'| + |q' - x.toRat| := by
    rcases hq with ⟨hq, hx⟩ | ⟨hx, hq⟩
    · rw [abs_of_nonpos (by linarith), abs_of_nonpos (by linarith), abs_of_nonpos (by linarith)]
      ring
    · rw [abs_of_nonneg (by linarith), abs_of_nonneg (by linarith), abs_of_nonneg (by linarith)]
      ring
  have htriangle (y : Binary64) : |q - y.toRat| ≤ |q - q'| + |q' - y.toRat| := abs_sub_le _ _ _
  refine ⟨?_, fun y => ?_, fun y hne he => h.even y hne ?_⟩
  · rcases hq with ⟨-, hx⟩ | ⟨-, hq⟩
    · exact hx.trans_lt x.toRat_lt_limit
    · exact hq.trans_lt h.lt_limit
  · linarith [h.le y, htriangle y]
  · linarith [h.le y, htriangle y]

theorem nearest_toRat (x : Binary64) : x.Nearest x.toRat := by
  refine ⟨x.toRat_lt_limit, fun y => ?_, fun y hne he => ?_⟩
  · rw [sub_self, abs_zero]
    exact abs_nonneg _
  · rw [sub_self, abs_zero, eq_comm, abs_eq_zero, sub_eq_zero] at he
    rcases Nat.lt_trichotomy x.bits y.bits with hlt | heq | hgt
    · exact absurd he (toRat_lt hlt).ne
    · exact absurd (ext_bits heq.symm) hne
    · exact absurd he (toRat_lt hgt).ne'

end HostRotation.Binary64
