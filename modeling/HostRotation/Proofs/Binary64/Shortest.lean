import HostRotation.Proofs.Binary64.Nearest

namespace HostRotation.Binary64

/-- The multiple of a power of ten that is nearest to a number, of those that are rounded to it. Of
two that are equally near it is the even one. -/
structure Closest (x : Binary64) (n : ℕ) (p : ℤ) : Prop where
  nearest : x.Nearest (n * 10 ^ p)
  le : ∀ m : ℕ, x.Nearest (m * 10 ^ p) → |n * 10 ^ p - x.toRat| ≤ |m * 10 ^ p - x.toRat|
  even : ∀ m : ℕ, m ≠ n → x.Nearest (m * 10 ^ p) →
    |n * 10 ^ p - x.toRat| = |m * 10 ^ p - x.toRat| → n % 2 = 0

/-- A multiple of the greatest power of ten of which one is rounded to the number. -/
structure IsShortest (x : Binary64) (n : ℕ) (p : ℤ) : Prop extends Closest x n p where
  coarsest : ∀ (m : ℕ) (q : ℤ), p < q → ¬x.Nearest (m * 10 ^ q)

variable {x : Binary64} {n n' k : ℕ} {p p' : ℤ} {step : Nat}

theorem ten_zpow_pos (p : ℤ) : (0 : ℚ) < 10 ^ p :=
  zpow_pos (by norm_num) p

theorem mul_ten_zpow_mono (p : ℤ) (h : n ≤ n') : (n : ℚ) * 10 ^ p ≤ n' * 10 ^ p :=
  mul_le_mul_of_nonneg_right (Nat.cast_le.2 h) (ten_zpow_pos p).le

theorem mul_ten_zpow_succ (n : ℕ) (p : ℤ) : (n : ℚ) * 10 ^ (p + 1) = (n * 10 : ℕ) * 10 ^ p := by
  rw [zpow_add_one₀ (by norm_num), Nat.cast_mul]
  ring

theorem IsShortest.mod_ne_zero (h : x.IsShortest n p) : n % 10 ≠ 0 := by
  intro hn
  apply h.coarsest (n / 10) (p + 1) (Int.lt_succ p)
  rw [mul_ten_zpow_succ, Nat.div_mul_cancel (Nat.dvd_of_mod_eq_zero hn)]
  exact h.nearest

theorem toRat_zero : zero.toRat = 0 := by
  have hunits : zero.units = 0 := by decide
  rw [toRat, hunits, Nat.cast_zero, zero_div]

theorem IsShortest.ne_zero (h : x.IsShortest n p) : x ≠ zero := by
  rintro rfl
  apply h.coarsest 0 (p + 1) (Int.lt_succ p)
  rw [Nat.cast_zero, zero_mul, ← toRat_zero]
  exact zero.nearest_toRat

theorem IsShortest.unique (h : x.IsShortest n p) (h' : x.IsShortest n' p') : n = n' ∧ p = p' := by
  have hp : p = p' := by
    rcases lt_trichotomy p p' with hlt | heq | hgt
    · exact absurd h'.nearest (h.coarsest n' p' hlt)
    · exact heq
    · exact absurd h.nearest (h'.coarsest n p hgt)
  subst hp
  refine ⟨?_, rfl⟩
  by_contra hne
  have hpos := ten_zpow_pos p
  have hdist : |n * 10 ^ p - x.toRat| = |n' * 10 ^ p - x.toRat| :=
    le_antisymm (h.le n' h'.nearest) (h'.le n h.nearest)
  -- two even multiples at the same distance have the number itself between them on the grid
  have heven := h.even n' (Ne.symm hne) h'.nearest hdist
  have heven' := h'.even n hne h.nearest hdist.symm
  have hmiddle : (((n + n') / 2 : ℕ) : ℚ) * 10 ^ p = x.toRat := by
    have hcast : (((n + n') / 2 : ℕ) : ℚ) * 2 = n + n' := by
      rw [← Nat.cast_add]
      exact_mod_cast Nat.div_mul_cancel (by omega)
    rcases abs_eq_abs.1 hdist with heq | heq
    · have hmul : (n : ℚ) * 10 ^ p = n' * 10 ^ p := by linarith
      exact absurd (by exact_mod_cast mul_right_cancel₀ hpos.ne' hmul) hne
    · have hsum : ((n : ℚ) + n') * 10 ^ p = 2 * x.toRat := by linarith
      rw [← hcast] at hsum
      linarith
  have hzero (m : ℕ) (hm : |m * 10 ^ p - x.toRat| ≤ |(((n + n') / 2 : ℕ) : ℚ) * 10 ^ p - x.toRat|) :
      (m : ℚ) * 10 ^ p = x.toRat := by
    rw [hmiddle, sub_self, abs_zero] at hm
    exact sub_eq_zero.1 (abs_eq_zero.1 (le_antisymm hm (abs_nonneg _)))
  have hexact : x.Nearest ((((n + n') / 2 : ℕ) : ℚ) * 10 ^ p) := by
    rw [hmiddle]
    exact x.nearest_toRat
  have heq := (hzero n (h.le _ hexact)).trans (hzero n' (h'.le _ hexact)).symm
  exact hne (by exact_mod_cast mul_right_cancel₀ hpos.ne' heq)

/-! ### Decimal grids -/

theorem cast_tenTo (n : Nat) : (tenTo n : ℚ) = 10 ^ n := by
  rw [tenTo]
  exact Nat.cast_pow 10 n

theorem cast_shiftLeft (n k : Nat) : ((n <<< k : Nat) : ℚ) = n * 2 ^ k := by
  rw [Nat.shiftLeft_eq, Nat.cast_mul, Nat.cast_pow, Nat.cast_ofNat]

def IsStep (p : ℤ) (step : Nat) : Prop :=
  (step : ℚ) = 10 ^ p * (10 ^ gridScale * 2 ^ 1074)

theorem isStep_gridStep {leading : ℤ} {digits : Nat} (h : 0 ≤ leading + gridScale + 1 - digits) :
    IsStep (leading + 1 - digits) (gridStep leading digits) := by
  have hpower : (10 : ℚ) ^ (leading + gridScale + 1 - digits).toNat =
      10 ^ (leading + 1 - digits) * 10 ^ gridScale := by
    rw [← zpow_natCast, ← zpow_natCast, ← zpow_add₀ (by norm_num), Int.toNat_of_nonneg h]
    congr 1
    ring
  unfold IsStep gridStep
  rw [cast_shiftLeft, cast_tenTo, hpower, mul_assoc]

theorem cast_units_mul (x : Binary64) :
    ((x.units * tenTo gridScale : ℕ) : ℚ) = x.toRat * (10 ^ gridScale * 2 ^ 1074) := by
  rw [toRat, Nat.cast_mul, cast_tenTo, mul_comm (10 ^ gridScale), ← mul_assoc,
    div_mul_cancel₀ _ (by positivity)]

namespace IsStep

variable (h : IsStep p step)
include h

theorem pos : 0 < step := by
  have hpos : (0 : ℚ) < step := by
    rw [h]
    have := ten_zpow_pos p
    positivity
  exact_mod_cast hpos

theorem mul_le_iff : (n : ℚ) * 10 ^ p ≤ x.toRat ↔ n * step ≤ x.units * tenTo gridScale := by
  rw [← Nat.cast_le (α := ℚ), cast_units_mul, Nat.cast_mul, h, ← mul_assoc,
    mul_le_mul_iff_left₀ (by positivity)]

theorem readsBack_iff (hx : x ≠ zero) :
    x.readsBack step n = true ↔ x.Nearest (n * 10 ^ p) := by
  have hscaled : ((2 * n * step : ℕ) : ℚ) = n * 10 ^ p * 2 ^ 1075 * 10 ^ gridScale := by
    rw [Nat.cast_mul, h, Nat.cast_mul, Nat.cast_ofNat, pow_succ' 2 1074]
    generalize (2 : ℚ) ^ 1074 = t
    ring
  have hle (b : ℕ) : b * tenTo gridScale ≤ 2 * n * step ↔ (b : ℚ) / 2 ^ 1075 ≤ n * 10 ^ p := by
    rw [div_le_iff₀ (by positivity), ← Nat.cast_le (α := ℚ), hscaled, Nat.cast_mul, cast_tenTo,
      mul_le_mul_iff_left₀ (by positivity)]
  have hge (b : ℕ) : 2 * n * step ≤ b * tenTo gridScale ↔ n * 10 ^ p ≤ (b : ℚ) / 2 ^ 1075 := by
    rw [le_div_iff₀ (by positivity), ← Nat.cast_le (α := ℚ), hscaled, Nat.cast_mul, cast_tenTo,
      mul_le_mul_iff_left₀ (by positivity)]
  rw [nearest_iff hx, Between, low, high, readsBack]
  obtain ⟨low, high⟩ := x.roundingBounds
  simp only
  split
  · simp only [Bool.and_eq_true, decide_eq_true_eq, hle, hge]
  · simp only [Bool.and_eq_true, decide_eq_true_eq, ← not_le, hle, hge]

end IsStep

/-! ### Neighbours on a grid -/

/-- A number lies between two neighbours on a grid. -/
structure OnFloor (x : Binary64) (k : ℕ) (p : ℤ) : Prop where
  le : (k : ℚ) * 10 ^ p ≤ x.toRat
  lt : x.toRat < ((k + 1 : ℕ) : ℚ) * 10 ^ p

namespace OnFloor

variable {m : ℕ} (h : x.OnFloor k p)
include h

theorem abs_of_le (hm : m ≤ k) : |m * 10 ^ p - x.toRat| = x.toRat - m * 10 ^ p := by
  have hmono := mul_ten_zpow_mono p hm
  rw [abs_of_nonpos (by linarith [h.le])]
  ring

theorem abs_of_gt (hm : k + 1 ≤ m) : |m * 10 ^ p - x.toRat| = m * 10 ^ p - x.toRat := by
  have hmono := mul_ten_zpow_mono p hm
  exact abs_of_nonneg (by linarith [h.lt])

theorem nearest_of_le (hm : m ≤ k) (hn : x.Nearest (m * 10 ^ p)) : x.Nearest (k * 10 ^ p) :=
  hn.closer (.inl ⟨mul_ten_zpow_mono p hm, h.le⟩)

theorem nearest_of_gt (hm : k + 1 ≤ m) (hn : x.Nearest (m * 10 ^ p)) :
    x.Nearest ((k + 1 : ℕ) * 10 ^ p) :=
  hn.closer (.inr ⟨h.lt.le, mul_ten_zpow_mono p hm⟩)

theorem closest (hn : x.Nearest (k * 10 ^ p))
    (hother : x.Nearest ((k + 1 : ℕ) * 10 ^ p) →
      x.toRat - k * 10 ^ p ≤ (k + 1 : ℕ) * 10 ^ p - x.toRat ∧
      (x.toRat - k * 10 ^ p = (k + 1 : ℕ) * 10 ^ p - x.toRat → k % 2 = 0)) :
    x.Closest k p := by
  refine ⟨hn, fun m hm => ?_, fun m hne hm he => ?_⟩
  · rw [h.abs_of_le (Nat.le_refl k)]
    rcases le_or_gt m k with hle | hgt
    · rw [h.abs_of_le hle]
      linarith [mul_ten_zpow_mono p hle]
    · rw [h.abs_of_gt hgt]
      linarith [(hother (h.nearest_of_gt hgt hm)).1, mul_ten_zpow_mono p hgt]
  · rw [h.abs_of_le (Nat.le_refl k)] at he
    rcases Nat.lt_or_gt_of_ne hne with hlt | hgt
    · rw [h.abs_of_le hlt.le] at he
      have heq : (k : ℚ) * 10 ^ p = m * 10 ^ p := by linarith
      exact absurd (by exact_mod_cast mul_right_cancel₀ (ten_zpow_pos p).ne' heq) hne.symm
    · rw [h.abs_of_gt hgt] at he
      obtain ⟨hle, heven⟩ := hother (h.nearest_of_gt hgt hm)
      exact heven (le_antisymm hle (by linarith [mul_ten_zpow_mono p hgt]))

theorem closest_succ (hn : x.Nearest ((k + 1 : ℕ) * 10 ^ p))
    (hother : x.Nearest (k * 10 ^ p) →
      (k + 1 : ℕ) * 10 ^ p - x.toRat ≤ x.toRat - k * 10 ^ p ∧
      ((k + 1 : ℕ) * 10 ^ p - x.toRat = x.toRat - k * 10 ^ p → (k + 1) % 2 = 0)) :
    x.Closest (k + 1) p := by
  refine ⟨hn, fun m hm => ?_, fun m hne hm he => ?_⟩
  · rw [h.abs_of_gt (Nat.le_refl (k + 1))]
    rcases le_or_gt m k with hle | hgt
    · rw [h.abs_of_le hle]
      linarith [(hother (h.nearest_of_le hle hm)).1, mul_ten_zpow_mono p hle]
    · rw [h.abs_of_gt hgt]
      linarith [mul_ten_zpow_mono p hgt]
  · rw [h.abs_of_gt (Nat.le_refl (k + 1))] at he
    rcases le_or_gt m k with hle | hgt
    · rw [h.abs_of_le hle] at he
      obtain ⟨hle', heven⟩ := hother (h.nearest_of_le hle hm)
      exact heven (le_antisymm hle' (by linarith [mul_ten_zpow_mono p hle]))
    · rw [h.abs_of_gt hgt] at he
      have heq : ((k + 1 : ℕ) : ℚ) * 10 ^ p = m * 10 ^ p := by linarith
      exact absurd (by exact_mod_cast mul_right_cancel₀ (ten_zpow_pos p).ne' heq) hne.symm

end OnFloor

namespace IsStep

variable (h : IsStep p step)
include h

theorem onFloor (x : Binary64) : x.OnFloor (x.units * tenTo gridScale / step) p where
  le := h.mul_le_iff.2 (Nat.div_mul_le_self _ _)
  lt := by
    rw [← not_le, h.mul_le_iff, not_le]
    exact Nat.lt_mul_of_div_lt (Nat.lt_succ_self _) h.pos

theorem distances (x : Binary64) :
    (x.toRat - (x.units * tenTo gridScale / step : ℕ) * 10 ^ p) * (10 ^ gridScale * 2 ^ 1074) =
        (x.units * tenTo gridScale % step : ℕ) ∧
      ((x.units * tenTo gridScale / step + 1 : ℕ) * 10 ^ p - x.toRat) *
        (10 ^ gridScale * 2 ^ 1074) = step - (x.units * tenTo gridScale % step : ℕ) := by
  have hdiv := congrArg (Nat.cast (R := ℚ)) (Nat.div_add_mod (x.units * tenTo gridScale) step)
  rw [cast_units_mul, Nat.cast_add, Nat.cast_mul, h] at hdiv
  rw [h, Nat.cast_add, Nat.cast_one]
  generalize (10 : ℚ) ^ gridScale * 2 ^ 1074 = w at *
  constructor
  · linarith
  · linarith

theorem sub_distances (x : Binary64) :
    ((x.units * tenTo gridScale / step + 1 : ℕ) * 10 ^ p - x.toRat -
        (x.toRat - (x.units * tenTo gridScale / step : ℕ) * 10 ^ p)) *
      (10 ^ gridScale * 2 ^ 1074) = step - 2 * (x.units * tenTo gridScale % step : ℕ) := by
  obtain ⟨hbelow, habove⟩ := h.distances x
  rw [sub_mul, hbelow, habove, two_mul, sub_add_eq_sub_sub]

theorem sub_le_sub_iff (x : Binary64) :
    x.toRat - (x.units * tenTo gridScale / step : ℕ) * 10 ^ p ≤
        (x.units * tenTo gridScale / step + 1 : ℕ) * 10 ^ p - x.toRat ↔
      2 * (x.units * tenTo gridScale % step) ≤ step := by
  have hpos : (0 : ℚ) < 10 ^ gridScale * 2 ^ 1074 := by positivity
  rw [← sub_nonneg, ← mul_le_mul_iff_left₀ hpos, zero_mul, h.sub_distances, sub_nonneg]
  exact_mod_cast Iff.rfl

theorem le_sub_iff (x : Binary64) :
    (x.units * tenTo gridScale / step + 1 : ℕ) * 10 ^ p - x.toRat ≤
        x.toRat - (x.units * tenTo gridScale / step : ℕ) * 10 ^ p ↔
      step ≤ 2 * (x.units * tenTo gridScale % step) := by
  have hpos : (0 : ℚ) < 10 ^ gridScale * 2 ^ 1074 := by positivity
  rw [← sub_nonpos, ← mul_le_mul_iff_left₀ hpos, zero_mul, h.sub_distances, sub_nonpos]
  exact_mod_cast Iff.rfl

theorem closest_roundDiv
    (hn : x.Nearest ((x.units * tenTo gridScale / step : ℕ) * 10 ^ p))
    (hn' : x.Nearest ((x.units * tenTo gridScale / step + 1 : ℕ) * 10 ^ p)) :
    x.Closest (roundDiv (x.units * tenTo gridScale) step) p := by
  rw [roundDiv]
  split
  · next hdown =>
    refine (h.onFloor x).closest hn fun _ => ⟨(h.sub_le_sub_iff x).2 (by omega), fun he => ?_⟩
    have hge := (h.le_sub_iff x).1 he.ge
    omega
  · next hup =>
    refine (h.onFloor x).closest_succ hn' fun _ => ⟨(h.le_sub_iff x).2 (by omega), fun he => ?_⟩
    have hle := (h.sub_le_sub_iff x).1 he.ge
    omega

theorem closest_of_onGrid (hx : x ≠ zero) (hn : x.onGrid step = some n) : x.Closest n p := by
  have hfloor := h.onFloor x
  rw [onGrid.eq_def] at hn
  simp only at hn
  split at hn
  · next hread hread' =>
    obtain rfl := Option.some.inj hn
    exact h.closest_roundDiv ((h.readsBack_iff hx).1 hread) ((h.readsBack_iff hx).1 hread')
  · next hread hread' =>
    obtain rfl := Option.some.inj hn
    refine hfloor.closest ((h.readsBack_iff hx).1 hread) fun hother => ?_
    rw [(h.readsBack_iff hx).2 hother] at hread'
    cases hread'
  · next hread hread' =>
    obtain rfl := Option.some.inj hn
    refine hfloor.closest_succ ((h.readsBack_iff hx).1 hread') fun hother => ?_
    rw [(h.readsBack_iff hx).2 hother] at hread
    cases hread
  · cases hn

theorem not_nearest_of_onGrid (hx : x ≠ zero) (hn : x.onGrid step = none) (m : ℕ) :
    ¬x.Nearest (m * 10 ^ p) := by
  intro hm
  have hfloor := h.onFloor x
  rw [onGrid.eq_def] at hn
  simp only at hn
  split at hn
  case h_4 hread hread' =>
    rcases le_or_gt m (x.units * tenTo gridScale / step) with hle | hgt
    · rw [(h.readsBack_iff hx).2 (hfloor.nearest_of_le hle hm)] at hread
      cases hread
    · rw [(h.readsBack_iff hx).2 (hfloor.nearest_of_gt hgt hm)] at hread'
      cases hread'
  all_goals cases hn

end IsStep

/-! ### The first digit -/

theorem toDigits_bounds {n : Nat} (hn : 0 < n) :
    10 ^ ((Nat.toDigits 10 n).length - 1) ≤ n ∧ n < 10 ^ (Nat.toDigits 10 n).length := by
  have hlength := Nat.length_toDigits_pos (b := 10) (n := n)
  refine ⟨?_, (Nat.length_toDigits_le_iff (by decide) hlength).1 (Nat.le_refl _)⟩
  by_contra hlt
  rcases Nat.eq_zero_or_pos ((Nat.toDigits 10 n).length - 1) with hzero | hpos
  · rw [hzero] at hlt
    omega
  · have hle := (Nat.length_toDigits_le_iff (by decide) hpos).2 (Nat.lt_of_not_le hlt)
    omega

theorem units_pos (hx : x ≠ zero) : 0 < x.units := by
  have hzero : zero.units < x.units := units_lt (bits_pos hx)
  omega

theorem shiftRight_mono {v w : Nat} (h : v ≤ w) (k : Nat) : v >>> k ≤ w >>> k := by
  rw [Nat.shiftRight_eq_div_pow, Nat.shiftRight_eq_div_pow]
  exact Nat.div_le_div_right h

theorem shiftRight_bounds (v k : Nat) :
    ((v >>> k : Nat) : ℚ) * 2 ^ k ≤ v ∧ (v : ℚ) < (v >>> k + 1 : Nat) * 2 ^ k := by
  rw [Nat.shiftRight_eq_div_pow]
  constructor
  · exact_mod_cast Nat.div_mul_le_self v (2 ^ k)
  · exact_mod_cast Nat.lt_mul_of_div_lt (Nat.lt_succ_self _) (Nat.two_pow_pos k)

theorem leadingPower_bounds (hx : x ≠ zero) :
    -324 ≤ x.leadingPower ∧ (10 : ℚ) ^ x.leadingPower ≤ x.toRat ∧
      x.toRat < 10 ^ (x.leadingPower + 1) := by
  -- the number cut to a whole number of the grid's finest steps has the same first digit
  obtain ⟨n, hn⟩ : ∃ n, n = (x.units * tenTo gridScale) >>> 1074 := ⟨_, rfl⟩
  obtain ⟨len, hlen⟩ : ∃ len, len + 1 = (Nat.toDigits 10 n).length :=
    ⟨_, Nat.sub_add_cancel Nat.length_toDigits_pos⟩
  have hpower : x.leadingPower + gridScale = len := by
    rw [leadingPower, ← hn, ← hlen, Nat.add_sub_cancel, Int.sub_add_cancel]
  have hmany : 10 ^ 76 ≤ n := by
    have hgrid : 10 ^ 76 ≤ tenTo gridScale >>> 1074 := by decide +kernel
    rw [hn]
    exact hgrid.trans (shiftRight_mono (Nat.le_mul_of_pos_left _ (units_pos hx)) _)
  obtain ⟨hlow, hhigh⟩ := toDigits_bounds (n := n) (by omega)
  rw [← hlen, Nat.add_sub_cancel] at hlow
  rw [← hlen] at hhigh
  have hlt : 76 < len + 1 := (Nat.pow_lt_pow_iff_right (by decide)).1 (hmany.trans_lt hhigh)
  have hscaled (k : ℤ) (m : Nat) (hk : k + gridScale = m) :
      (10 : ℚ) ^ k * 10 ^ gridScale = (10 ^ m : Nat) := by
    rw [← zpow_natCast, ← zpow_add₀ (by norm_num), hk, zpow_natCast, Nat.cast_pow, Nat.cast_ofNat]
  have hvalue := x.cast_units_mul
  obtain ⟨hfloor, hceil⟩ := shiftRight_bounds (x.units * tenTo gridScale) 1074
  rw [← hn, hvalue, ← mul_assoc] at hfloor hceil
  have hpos : (0 : ℚ) < 2 ^ 1074 := by positivity
  have hpos' : (0 : ℚ) < 10 ^ gridScale := by positivity
  refine ⟨?_, ?_, ?_⟩
  · rw [gridScale] at hpower
    omega
  · rw [← mul_le_mul_iff_left₀ hpos', hscaled _ _ hpower]
    exact (Nat.cast_le.2 hlow).trans (le_of_mul_le_mul_right hfloor hpos)
  · rw [← mul_lt_mul_iff_left₀ hpos', hscaled _ (len + 1) (by omega)]
    exact (lt_of_mul_lt_mul_right hceil hpos.le).trans_le (Nat.cast_le.2 hhigh)

/-! ### Seventeen digits -/

theorem two_mul_units_lt (hx : x ≠ zero) :
    2 * x.units + x.roundingBounds.1 * 10 ^ 16 < x.roundingBounds.2 * 10 ^ 16 := by
  have hpred := bits_pred hx
  have hunits := units_succ hpred
  have hscale := scale_pred hpred
  have hpos : 0 < 2 ^ x.scale := Nat.two_pow_pos _
  rw [fst_roundingBounds hpred, snd_roundingBounds]
  -- the number before is half as far where the last place changes, but there the number is small
  split at hscale
  · have hlt : x.units < 2 ^ 53 * 2 ^ x.scale := by
      rw [units_eq]
      exact Nat.mul_lt_mul_of_pos_right x.significand_lt hpos
    rw [hscale] at hunits
    omega
  · next hcarry =>
    have hle : x.units ≤ 2 ^ 52 * 2 ^ x.scale := by
      rw [units_eq]
      exact Nat.mul_le_mul_right _ (by omega)
    have hpos' : 0 < 2 ^ x.pred.scale := Nat.two_pow_pos _
    omega

theorem toRat_eq (x : Binary64) : x.toRat = 2 * x.units / 2 ^ 1075 := by
  rw [toRat, pow_succ' 2 1074, mul_div_mul_left _ _ (by norm_num)]

/-- The values that are rounded to a number take up more of it than its seventeenth digit can. -/
theorem toRat_lt_mul (hx : x ≠ zero) : x.toRat < (x.high - x.low) * 10 ^ 16 := by
  have hlt : ((2 * x.units + x.roundingBounds.1 * 10 ^ 16 : ℕ) : ℚ) <
      (x.roundingBounds.2 * 10 ^ 16 : ℕ) := Nat.cast_lt.2 (two_mul_units_lt hx)
  rw [Nat.cast_add, Nat.cast_mul, Nat.cast_mul, Nat.cast_mul, Nat.cast_ofNat, Nat.cast_pow,
    Nat.cast_ofNat] at hlt
  rw [toRat_eq, high, low, ← sub_div, div_mul_eq_mul_div]
  exact div_lt_div_of_pos_right (by linarith) (by positivity)

theorem onGrid_seventeen (hx : x ≠ zero) : x.onGrid (gridStep x.leadingPower 17) ≠ none := by
  intro hnone
  obtain ⟨hleast, hle, -⟩ := leadingPower_bounds hx
  have hstep : IsStep (x.leadingPower + 1 - (17 : ℕ)) (gridStep x.leadingPower 17) := by
    apply isStep_gridStep
    rw [gridScale]
    omega
  have hno := hstep.not_nearest_of_onGrid hx hnone
  obtain ⟨hfloor, hceil⟩ := hstep.onFloor x
  generalize x.units * tenTo gridScale / gridStep x.leadingPower 17 = k at hfloor hceil
  -- the two neighbours on the grid are out of bounds, so that its step is wider than these
  have hlow : k * 10 ^ (x.leadingPower + 1 - (17 : ℕ)) ≤ x.low := by
    by_contra hlt
    exact hno k (between_of_lt (not_le.1 hlt) (hfloor.trans_lt x.toRat_lt_high)).nearest
  have hhigh : x.high ≤ (k + 1 : ℕ) * 10 ^ (x.leadingPower + 1 - (17 : ℕ)) := by
    by_contra hlt
    exact hno (k + 1) (between_of_lt ((low_lt_toRat hx).trans hceil) (not_le.1 hlt)).nearest
  have hpower : (10 : ℚ) ^ (x.leadingPower + 1 - (17 : ℕ)) * 10 ^ 16 = 10 ^ x.leadingPower := by
    rw [← zpow_natCast, ← zpow_add₀ (by norm_num)]
    congr 1
    omega
  have hwide := toRat_lt_mul hx
  rw [Nat.cast_add, Nat.cast_one] at hhigh
  linarith

/-! ### One digit -/

theorem mul_high_sub_le {c : ℕ} (h : c * 2 ^ x.scale ≤ x.units) :
    2 * c * (x.high - x.toRat) ≤ x.toRat := by
  have hcast : (c : ℚ) * 2 ^ x.scale ≤ x.units := by exact_mod_cast h
  have hhigh : x.high - x.toRat = 2 ^ x.scale / 2 ^ 1075 := by
    rw [high, snd_roundingBounds, toRat_eq, ← sub_div, Nat.cast_add, Nat.cast_mul, Nat.cast_pow,
      Nat.cast_ofNat, add_sub_cancel_left]
  rw [hhigh, toRat_eq, ← mul_div_assoc]
  exact div_le_div_of_nonneg_right (by linarith) (by positivity)

theorem scale_le_units (hx : x ≠ zero) : 1 * 2 ^ x.scale ≤ x.units := by
  have hpos := units_pos hx
  rw [units_eq] at hpos ⊢
  exact Nat.mul_le_mul_right _ (Nat.pos_of_mul_pos_right hpos)

theorem ten_scales_le_units (h : 10 ≤ x.bits) : 10 * 2 ^ x.scale ≤ x.units := by
  have hsignificand := x.significand_eq
  rw [units_eq]
  apply Nat.mul_le_mul_right
  rcases Nat.eq_zero_or_pos x.scale with hzero | hpos
  · omega
  · have hle := le_significand hpos
    omega

theorem isStep_one (hx : x ≠ zero) : IsStep x.leadingPower (gridStep x.leadingPower 1) := by
  have hleast := (leadingPower_bounds hx).1
  have hstep : IsStep (x.leadingPower + 1 - (1 : ℕ)) (gridStep x.leadingPower 1) := by
    apply isStep_gridStep
    rw [gridScale]
    omega
  rwa [Nat.cast_one, Int.add_sub_cancel] at hstep

/-- The least numbers, which have large steps: for them it is computed. -/
theorem onGrid_least : ∀ b : Fin 10, 0 < b.val →
    let x : Binary64 := { bits := b, finite := b.2.trans (by decide) }
    x.readsBack (gridStep x.leadingPower 1) 10 = true →
      x.onGrid (gridStep x.leadingPower 1) = some 10 := by
  decide +kernel

/-- The power of ten after a number is the closest one-digit decimal if it is rounded to it. -/
theorem onGrid_ten (hx : x ≠ zero) (h : x.Nearest ((10 : ℕ) * 10 ^ x.leadingPower)) :
    x.onGrid (gridStep x.leadingPower 1) = some 10 := by
  have hstep := isStep_one hx
  rcases Nat.lt_or_ge x.bits 10 with hlt | hge
  · exact onGrid_least ⟨x.bits, hlt⟩ (bits_pos hx) ((hstep.readsBack_iff hx).2 h)
  cases hfound : x.onGrid (gridStep x.leadingPower 1) with
  | none => exact absurd h (hstep.not_nearest_of_onGrid hx hfound 10)
  | some n =>
    have hclosest := (hstep.closest_of_onGrid hx hfound).le 10 h
    obtain ⟨-, -, hceil⟩ := leadingPower_bounds hx
    have hfar := mul_high_sub_le (ten_scales_le_units hge)
    have hhigh := (h.between hx).le.2
    have hpos := ten_zpow_pos x.leadingPower
    rw [zpow_add_one₀ (by norm_num)] at hceil
    rw [Nat.cast_ofNat] at hclosest hhigh hfar
    rw [abs_of_nonneg (a := 10 * 10 ^ x.leadingPower - x.toRat) (by linarith), abs_le] at hclosest
    have hle : (n : ℚ) ≤ 10 := le_of_mul_le_mul_right (by linarith) hpos
    have hge : (9 : ℚ) < n := lt_of_mul_lt_mul_right (by linarith) hpos.le
    have hn : n = 10 := by
      have hle' : n ≤ 10 := by exact_mod_cast hle
      have hge' : 9 < n := by exact_mod_cast hge
      omega
    rw [hn]

/-! ### The search -/

theorem shortestFrom_eq {leading : ℤ} {grids digits j : Nat} (hj : digits ≤ j)
    (hlt : j < digits + grids) (hfound : x.onGrid (gridStep leading j) = some n)
    (hnone : ∀ i, digits ≤ i → i < j → x.onGrid (gridStep leading i) = none) :
    x.shortestFrom leading digits grids = .ofScaled n (leading + 1 - j) := by
  induction grids generalizing digits with
  | zero => omega
  | succ grids ih =>
    rw [shortestFrom]
    rcases Nat.lt_or_eq_of_le hj with hlt' | rfl
    · rw [hnone digits (Nat.le_refl _) hlt']
      exact ih hlt' (by omega) fun i hi => hnone i (by omega)
    · rw [hfound]

theorem exists_first_grid (hx : x ≠ zero) :
    ∃ j n, 1 ≤ j ∧ j ≤ 17 ∧ x.onGrid (gridStep x.leadingPower j) = some n ∧
      ∀ i, 1 ≤ i → i < j → x.onGrid (gridStep x.leadingPower i) = none := by
  have hexists : ∃ j, 1 ≤ j ∧ x.onGrid (gridStep x.leadingPower j) ≠ none :=
    ⟨17, by decide, onGrid_seventeen hx⟩
  obtain ⟨hpos, hfound⟩ := Nat.find_spec hexists
  obtain ⟨n, hn⟩ := Option.ne_none_iff_exists'.1 hfound
  refine ⟨Nat.find hexists, n, hpos, Nat.find_min' hexists ⟨by decide, onGrid_seventeen hx⟩, hn, ?_⟩
  intro i hi hlt
  by_contra hne
  exact Nat.find_min hexists hlt ⟨hi, hne⟩

theorem not_nearest_zero (hx : x ≠ zero) (p : ℤ) : ¬x.Nearest ((0 : ℕ) * 10 ^ p) := by
  intro h
  have hlow := (h.between hx).le.1
  have hpos : x.pred.toRat < x.toRat := toRat_lt (by have := bits_pred hx; omega)
  rw [low_eq (bits_pred hx), Nat.cast_zero, zero_mul] at hlow
  linarith [x.pred.toRat_nonneg]

theorem ten_zpow_le_mul (hx : x ≠ zero) {m : ℕ} {q : ℤ} (hp : p ≤ q)
    (h : x.Nearest (m * 10 ^ q)) : (10 : ℚ) ^ p ≤ m * 10 ^ q := by
  have hm : 1 ≤ m := by
    apply Nat.pos_of_ne_zero
    rintro rfl
    exact not_nearest_zero hx q h
  calc (10 : ℚ) ^ p ≤ 10 ^ q := zpow_le_zpow_right₀ (by norm_num) hp
    _ = (1 : ℕ) * 10 ^ q := by rw [Nat.cast_one, one_mul]
    _ ≤ m * 10 ^ q := mul_ten_zpow_mono q hm

theorem isShortest_of_ten (hx : x ≠ zero) (h : x.Closest 10 x.leadingPower) :
    x.IsShortest 1 (x.leadingPower + 1) := by
  obtain ⟨-, -, hlt⟩ := leadingPower_bounds hx
  have hpos := ten_zpow_pos (x.leadingPower + 1)
  refine ⟨⟨?_, fun m hm => ?_, fun m hne hm he => ?_⟩, fun m q hq hm => ?_⟩
  · rw [mul_ten_zpow_succ]
    exact h.nearest
  · rw [mul_ten_zpow_succ] at hm ⊢
    rw [mul_ten_zpow_succ]
    exact h.le (m * 10) hm
  · have hm' : 2 ≤ m := by
      rcases Nat.lt_or_ge m 1 with hzero | hpos
      · obtain rfl := Nat.lt_one_iff.1 hzero
        exact absurd hm (not_nearest_zero hx _)
      · omega
    have hmono := mul_ten_zpow_mono (x.leadingPower + 1) hm'
    rw [Nat.cast_ofNat] at hmono
    rw [Nat.cast_one, one_mul, abs_of_pos (by linarith), abs_of_pos (by linarith)] at he
    exact absurd he (ne_of_lt (by linarith))
  · have hle := ten_zpow_le_mul hx (p := x.leadingPower + 1 + 1) (by omega) hm
    have hhigh := (hm.between hx).le.2
    have hfar := mul_high_sub_le (scale_le_units hx)
    rw [zpow_add_one₀ (by norm_num)] at hle
    rw [Nat.cast_one] at hfar
    linarith

/-- What is found is the shortest decimal. -/
theorem exists_isShortest (hx : x ≠ zero) :
    ∃ n p, x.IsShortest n p ∧ x.shortest = .ofScaled n p := by
  obtain ⟨hleast, hle, hlt⟩ := leadingPower_bounds hx
  obtain ⟨j, n, hpos, hj, hfound, hnone⟩ := exists_first_grid hx
  have hshortest : x.shortest = .ofScaled n (x.leadingPower + 1 - j) :=
    shortestFrom_eq hpos (by omega) hfound hnone
  have hstep (i : ℕ) (hi : i ≤ 17) :
      IsStep (x.leadingPower + 1 - i) (gridStep x.leadingPower i) := by
    apply isStep_gridStep
    rw [gridScale]
    omega
  have hclosest := (hstep j hj).closest_of_onGrid hx hfound
  by_cases hten : x.Nearest ((10 : ℕ) * 10 ^ x.leadingPower)
  · -- the first grid has it, and a coarser one has it with one digit less
    have hfirst := onGrid_ten hx hten
    obtain rfl : j = 1 := by
      by_contra hne
      rw [hnone 1 (Nat.le_refl 1) (by omega)] at hfirst
      cases hfirst
    obtain rfl : 10 = n := Option.some.inj (hfirst.symm.trans hfound)
    rw [Nat.cast_one, Int.add_sub_cancel] at hclosest hshortest
    refine ⟨1, _, isShortest_of_ten hx hclosest, hshortest.trans ?_⟩
    exact congrArg (Decimal.mk ['1']) (Int.add_zero _).symm
  · refine ⟨n, _, ⟨hclosest, fun m q hq hm => ?_⟩, hshortest⟩
    -- a greater power of ten has its own grid before, or the power after the number is nearer
    rcases le_or_gt q x.leadingPower with hq' | hq'
    · obtain ⟨i, hi⟩ : ∃ i : ℕ, q = x.leadingPower + 1 - i :=
        ⟨(x.leadingPower + 1 - q).toNat, by omega⟩
      subst hi
      have hno := hnone i (by omega) (by omega)
      exact (hstep i (by omega)).not_nearest_of_onGrid hx hno m hm
    · have hle' := ten_zpow_le_mul hx (p := x.leadingPower + 1) (by omega) hm
      apply hten
      rw [← Nat.one_mul 10, ← mul_ten_zpow_succ, Nat.cast_one, one_mul]
      exact hm.closer (.inr ⟨hlt.le, hle'⟩)

theorem IsShortest.shortest_eq (h : x.IsShortest n p) : x.shortest = .ofScaled n p := by
  obtain ⟨n', p', h', hfound⟩ := exists_isShortest h.ne_zero
  obtain ⟨rfl, rfl⟩ := h.unique h'
  exact hfound

end HostRotation.Binary64
