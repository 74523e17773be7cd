import Mathlib

/-!
# Rounding doubles

Multiplying, dividing and converting to a double rounds an exact result to 53 bits. What is rounded
is at most one unit in the last place larger than it was, and a result whose bound stays below
`2^1024` is finite.

Results:

* `roundWithAccuracy_eq`: a number is rounded to its upper bits or to one more.
* `within_or_isInf_round`: a rounded number is within a bound, or infinite.
* `within_mul`, `moderate_div`: products and quotients that stay in range.
* `within_ofNat`, `powerOfTen`: the doubles of significands and of powers of ten.
* `bounds_of_unpack`, `exponentBits_of_isFinite`: what the bits of finite doubles are.
-/

namespace CapabilityPipeline.Json

open Float.Model (Format UnpackedFloat totalExponent)
open Float.Model.UnpackedFloat (Accuracy ExtendedMantissa Sign roundWithAccuracy
  shiftToTargetExponent)

/-! ## Rounding to 53 bits -/

theorem mantissa_shiftRight (em : ExtendedMantissa) (k : Nat) :
    (em >>> k).mantissa = em.mantissa / 2 ^ k := by
  induction k with
  | zero => exact (Nat.div_one _).symm
  | succ k ih =>
    show (em >>> k).mantissa / 2 = _
    rw [ih, Nat.div_div_eq_div_mul, Nat.pow_succ]

theorem roundedMantissa_bounds (em : ExtendedMantissa) :
    em.mantissa ≤ em.roundedMantissa ∧ em.roundedMantissa ≤ em.mantissa + 1 := by
  obtain ⟨m, round, sticky⟩ := em
  cases round <;> cases sticky <;>
    simp [ExtendedMantissa.roundedMantissa, ExtendedMantissa.accuracy, Accuracy.roundToNearestEven]
  omega

/-- The exponent at which a number `m · 2^e` is rounded to 53 bits. -/
def roundingExponent (m : Nat) (e : Int) : Int :=
  max e (max (m.log2 + e - 52) (-1074))

theorem targetExponent_eq (m : Nat) (e : Int) :
    Format.binary64.targetExponent (totalExponent m e) = max (m.log2 + e - 52) (-1074) := by
  simp only [Format.targetExponent, totalExponent, Format.mantissaBits, Format.minExponent]
  norm_num
  omega

/-- The number of bits dropped. -/
def droppedBits (m : Nat) (e : Int) : Nat :=
  (roundingExponent m e - e).toNat

theorem shiftToTargetExponent_eq (m : Nat) (e : Int) (accuracy : Accuracy) :
    (shiftToTargetExponent Format.binary64 m e accuracy).1.mantissa = m / 2 ^ droppedBits m e ∧
      (shiftToTargetExponent Format.binary64 m e accuracy).2 = roundingExponent m e := by
  have shift : (Format.binary64.targetExponent (totalExponent m e) - e).toNat =
      droppedBits m e := by
    rw [targetExponent_eq, droppedBits, roundingExponent]
    omega
  have start : (ExtendedMantissa.ofMantissaAndAccuracy m accuracy).mantissa = m := by
    cases accuracy with
    | exact => rfl
    | inexact order => cases order <;> rfl
  simp only [shiftToTargetExponent, Float.Model.UnpackedFloat.shiftToExponent, shift,
    mantissa_shiftRight, start, true_and]
  rw [droppedBits, roundingExponent]
  omega

theorem div_lt_two_pow (m : Nat) (e : Int) : m / 2 ^ droppedBits m e < 2 ^ 53 := by
  rw [Nat.div_lt_iff_lt_mul (Nat.two_pow_pos _), ← Nat.pow_add]
  refine Nat.lt_of_lt_of_le Nat.lt_log2_self (Nat.pow_le_pow_right (by decide) ?_)
  rw [droppedBits, roundingExponent]
  omega

/-- A number is rounded to its upper bits or to one more. -/
theorem roundWithAccuracy_eq (s : Sign) (m : Nat) (e : Int) (accuracy : Accuracy) :
    ∃ r, m / 2 ^ droppedBits m e ≤ r ∧ r ≤ m / 2 ^ droppedBits m e + 1 ∧
      roundWithAccuracy Format.binary64 s m e accuracy =
      if h : r = 0 then .zero s
      else if r < 2 ^ 53 then .finite s r (roundingExponent m e) (Nat.pos_of_ne_zero h)
      else .finite s (2 ^ 52) (roundingExponent m e + 1) (by decide) := by
  have below := div_lt_two_pow m e
  obtain ⟨upper, exponent⟩ := shiftToTargetExponent_eq m e accuracy
  have least : -1074 ≤ roundingExponent m e := by
    rw [roundingExponent]
    omega
  unfold roundWithAccuracy
  generalize shiftToTargetExponent Format.binary64 m e accuracy = first at upper exponent
  obtain ⟨em, e'⟩ := first
  dsimp only at upper exponent ⊢
  have bounds := roundedMantissa_bounds em
  rw [upper] at bounds
  rw [← exponent] at least ⊢
  generalize em.roundedMantissa = r at bounds
  refine ⟨r, bounds.1, bounds.2, ?_⟩
  -- the second shift only takes up a carry into a fifty-fourth bit
  obtain ⟨mantissa, last⟩ := shiftToTargetExponent_eq r e' .exact
  by_cases small : r < 2 ^ 53
  · have same : roundingExponent r e' = e' := by
      rw [roundingExponent]
      by_cases zero : r = 0
      · rw [zero, Nat.log2_zero]
        omega
      · have := (Nat.log2_lt zero).mpr small
        omega
    rw [droppedBits, same, Int.sub_self, Int.toNat_zero, Nat.pow_zero, Nat.div_one] at mantissa
    simp only [mantissa, last, same, small, if_true]
  · obtain rfl : r = 2 ^ 53 := by omega
    have carry : roundingExponent (2 ^ 53) e' = e' + 1 := by
      rw [roundingExponent, Nat.log2_two_pow]
      omega
    have one : droppedBits (2 ^ 53) e' = 1 := by
      rw [droppedBits, carry]
      omega
    rw [one] at mantissa
    simp only [mantissa, last, carry]
    norm_num

/-! ## Packing -/

/-- The number is finite, and its magnitude is at most `v`. -/
def Within (v : ℚ) : UnpackedFloat → Prop
  | .zero _ => 0 ≤ v
  | .finite _ m e _ => (m : ℚ) * 2 ^ e ≤ v
  | .infinity _ => False
  | .notANumber => False

theorem Within.mono {v w : ℚ} {f : UnpackedFloat} (h : Within v f) (le : v ≤ w) : Within w f := by
  cases f with
  | zero => exact le_trans h le
  | finite => exact le_trans h le
  | infinity => exact h
  | notANumber => exact h

theorem isInf_unpack_packedInfinity (s : Sign) :
    (UnpackedFloat.unpack Format.binary64
      (UnpackedFloat.packedInfinity Format.binary64 s)).isInf = true := by
  rw [UnpackedFloat.packedInfinity, UnpackedFloat.unpack]
  simp [UnpackedFloat.isInf]

theorem within_unpack_subnormal (s : Sign) (mantissa : BitVec 52) :
    Within (mantissa.toNat * 2 ^ (-1074 : Int)) (UnpackedFloat.unpack Format.binary64
      (UnpackedFloat.packComponents Format.binary64 s 0#11 mantissa)) := by
  rw [UnpackedFloat.unpack]
  simp only [UnpackedFloat.unpackExponent_packComponents,
    UnpackedFloat.unpackMantissa_packComponents]
  rw [if_neg (by decide), if_pos trivial]
  split
  · exact mul_nonneg (Nat.cast_nonneg _) (zpow_nonneg (by norm_num) _)
  · exact le_of_eq rfl

theorem unpack_normal (s : Sign) {exponent : BitVec 11} (mantissa : BitVec 52)
    (low : exponent ≠ 0#11) (high : exponent ≠ -1#11) :
    ∃ s' pos, UnpackedFloat.unpack Format.binary64
        (UnpackedFloat.packComponents Format.binary64 s exponent mantissa) =
      .finite s' (2 ^ 52 + mantissa.toNat) (exponent.toNat - 1075) pos := by
  have value : (1#1 ++ mantissa).toNat = 2 ^ 52 + mantissa.toNat := by
    rw [BitVec.toNat_append, Nat.shiftLeft_eq, Nat.mul_comm,
      ← Nat.two_pow_add_eq_or_of_lt mantissa.isLt]
    rfl
  rw [UnpackedFloat.unpack]
  simp only [UnpackedFloat.unpackExponent_packComponents,
    UnpackedFloat.unpackMantissa_packComponents]
  rw [if_neg high, if_neg low]
  simp only [value]
  exact ⟨_, by omega, rfl⟩

/-- The biased exponent does not fit its eleven bits. -/
theorem overflows_iff (e : Int) : 2 ^ Format.binary64.exponentBits ≤
    (e + Format.binary64.exponentBias + Format.binary64.mantissaBitsWithoutImplicit).toNat + 1 ↔
      971 < e := by
  simp only [Format.exponentBias]
  norm_num
  omega

/-- A mantissa of 53 bits is packed as it is. -/
theorem unpack_pack_normal (s : Sign) {m : Nat} {e : Int} (pos : 0 < m) (lower : 2 ^ 52 ≤ m)
    (bits : m < 2 ^ 53) (least : -1074 ≤ e) (inRange : e ≤ 971) :
    ∃ s', (Float.Model.pack (.finite s m e pos)).unpack = .finite s' m e pos := by
  have biased : e + Format.binary64.exponentBias + Format.binary64.mantissaBitsWithoutImplicit =
      e + 1075 := by
    simp only [Format.exponentBias]
    norm_num
    omega
  have normal : m.log2 + 1 = Format.binary64.mantissaBits := by
    rw [(Nat.log2_eq_iff pos.ne').mpr ⟨lower, bits⟩]
    rfl
  have packed : UnpackedFloat.pack Format.binary64 (.finite s m e pos) =
      UnpackedFloat.packComponents Format.binary64 s (BitVec.ofNat 11 (e + 1075).toNat)
        (BitVec.ofNat 52 m) := by
    simp only [UnpackedFloat.pack]
    rw [if_neg (by rw [overflows_iff]; omega), if_pos normal, biased]
  have exponent : (BitVec.ofNat 11 (e + 1075).toNat).toNat = (e + 1075).toNat := by
    rw [BitVec.toNat_ofNat, Nat.mod_eq_of_lt (by omega)]
  have low : BitVec.ofNat 11 (e + 1075).toNat ≠ 0#11 := by
    intro zero
    rw [zero, BitVec.toNat_zero] at exponent
    omega
  have high : BitVec.ofNat 11 (e + 1075).toNat ≠ -1#11 := by
    intro ones
    rw [ones, show (-1#11).toNat = 2047 from rfl] at exponent
    omega
  obtain ⟨s', pos', unpacked⟩ := unpack_normal s (BitVec.ofNat 52 m) low high
  have mantissa : 2 ^ 52 + (BitVec.ofNat 52 m).toNat = m := by
    rw [BitVec.toNat_ofNat]
    omega
  have scale : ((BitVec.ofNat 11 (e + 1075).toNat).toNat : Int) - 1075 = e := by
    rw [exponent]
    omega
  simp only [mantissa, scale] at unpacked
  refine ⟨s', ?_⟩
  show UnpackedFloat.unpack _ (UnpackedFloat.pack _ _) = _
  rw [packed, unpacked]

/-- A mantissa of at most 53 bits and an exponent that is not too small are packed as they are, or
as infinity. -/
theorem unpack_pack (s : Sign) {m : Nat} {e : Int} (pos : 0 < m) (bits : m < 2 ^ 53)
    (least : -1074 ≤ e) :
    if e ≤ 971 then Within (m * 2 ^ e) (Float.Model.pack (.finite s m e pos)).unpack
    else (Float.Model.pack (.finite s m e pos)).unpack.isInf = true := by
  split
  · next inRange =>
    rcases Nat.lt_or_ge m (2 ^ 52) with upper | lower
    · have subnormal : m.log2 + 1 ≠ Format.binary64.mantissaBits := by
        have := (Nat.log2_lt pos.ne').mpr upper
        simp only [Format.mantissaBits]
        omega
      have packed : UnpackedFloat.pack Format.binary64 (.finite s m e pos) =
          UnpackedFloat.packComponents Format.binary64 s 0#11 (BitVec.ofNat 52 m) := by
        simp only [UnpackedFloat.pack]
        rw [if_neg (by rw [overflows_iff]; omega), if_neg subnormal]
      show Within _ (UnpackedFloat.unpack _ (UnpackedFloat.pack _ _))
      rw [packed]
      refine (within_unpack_subnormal s _).mono ?_
      rw [BitVec.toNat_ofNat, Nat.mod_eq_of_lt upper]
      exact mul_le_mul_of_nonneg_left (zpow_le_zpow_right₀ (by norm_num) least) (Nat.cast_nonneg _)
    · obtain ⟨s', unpacked⟩ := unpack_pack_normal s pos lower bits least inRange
      rw [unpacked]
      exact le_of_eq rfl
  · next big =>
    have packed : UnpackedFloat.pack Format.binary64 (.finite s m e pos) =
        UnpackedFloat.packedInfinity Format.binary64 s := by
      simp only [UnpackedFloat.pack]
      rw [if_pos (by rw [overflows_iff]; omega)]
    show (UnpackedFloat.unpack _ (UnpackedFloat.pack _ _)).isInf = true
    rw [packed]
    exact isInf_unpack_packedInfinity s

/-! ## Bounds -/

/-- A bound on what a number `m · 2^e` is rounded to. -/
def roundingBound (m : Nat) (e : Int) : ℚ :=
  (m / 2 ^ droppedBits m e + 1 : ℕ) * 2 ^ roundingExponent m e

theorem unpack_pack_zero (s : Sign) : (Float.Model.pack (.zero s)).unpack = .zero s :=
  UnpackedFloat.unpack_packedZero

theorem roundingBound_nonneg (m : Nat) (e : Int) : 0 ≤ roundingBound m e :=
  mul_nonneg (Nat.cast_nonneg _) (zpow_nonneg (by norm_num) _)

/-- A rounded number is within the bound, or it is infinite and the bound is not in range. -/
theorem within_or_isInf_round (s : Sign) (m : Nat) (e : Int) (accuracy : Accuracy) :
    Within (roundingBound m e)
        (Float.Model.pack (roundWithAccuracy Format.binary64 s m e accuracy)).unpack ∨
      (Float.Model.pack (roundWithAccuracy Format.binary64 s m e accuracy)).unpack.isInf = true ∧
        (roundingExponent m e ≤ 971 → 2 ^ 1024 ≤ roundingBound m e) := by
  obtain ⟨r, -, le, rounded⟩ := roundWithAccuracy_eq s m e accuracy
  have least : -1074 ≤ roundingExponent m e := by
    rw [roundingExponent]
    omega
  have bound : (r : ℚ) * 2 ^ roundingExponent m e ≤ roundingBound m e :=
    mul_le_mul_of_nonneg_right (Nat.cast_le.mpr le) (zpow_nonneg (by norm_num) _)
  rw [rounded]
  split
  · rw [unpack_pack_zero]
    exact .inl (roundingBound_nonneg m e)
  · split
    · next nonzero bits =>
      have packed := unpack_pack s (Nat.pos_of_ne_zero nonzero) bits least
      split at packed
      · exact .inl (packed.mono bound)
      · next big => exact .inr ⟨packed, fun small => absurd small big⟩
    · next nonzero bits =>
      have packed := unpack_pack s (m := 2 ^ 52) (e := roundingExponent m e + 1) (by decide)
        (by decide) (by omega)
      have value : (2 : ℚ) ^ 53 * 2 ^ roundingExponent m e ≤ roundingBound m e :=
        le_trans (mul_le_mul_of_nonneg_right (by exact_mod_cast Nat.not_lt.mp bits)
          (zpow_nonneg (by norm_num) _)) bound
      split at packed
      · refine .inl (packed.mono (le_trans (le_of_eq ?_) value))
        rw [zpow_add₀ (by norm_num)]
        push_cast
        ring
      · next big =>
        refine .inr ⟨packed, fun small => le_trans ?_ value⟩
        have exponent : roundingExponent m e = 971 := by omega
        rw [exponent, ← zpow_natCast 2 53, ← zpow_add₀ two_ne_zero]
        exact le_of_eq rfl

theorem roundingBound_le (m : Nat) (e : Int) :
    roundingBound m e ≤ m * 2 ^ e + 2 ^ roundingExponent m e := by
  have exponent : roundingExponent m e = droppedBits m e + e := by
    rw [droppedBits, roundingExponent]
    omega
  have upper : ((m / 2 ^ droppedBits m e : ℕ) : ℚ) * 2 ^ droppedBits m e ≤ m := by
    exact_mod_cast Nat.div_mul_le_self m (2 ^ droppedBits m e)
  rw [roundingBound, Nat.cast_add, Nat.cast_one, add_mul, one_mul]
  refine add_le_add_left ?_ _
  rw [exponent, zpow_add₀ two_ne_zero, ← mul_assoc, zpow_natCast]
  exact mul_le_mul_of_nonneg_right upper (zpow_nonneg (by norm_num) _)

/-- The leading bit is worth at most the number. -/
theorem leadingBit_le {m : Nat} (pos : 0 < m) (e : Int) :
    (2 : ℚ) ^ (m.log2 + e) ≤ m * 2 ^ e := by
  rw [zpow_add₀ two_ne_zero, zpow_natCast]
  exact mul_le_mul_of_nonneg_right (by exact_mod_cast Nat.log2_self_le pos.ne')
    (zpow_nonneg (by norm_num) _)

theorem lt_of_two_zpow_lt {n k : Int} (h : (2 : ℚ) ^ n < 2 ^ k) : n < k :=
  (zpow_lt_zpow_iff_right₀ one_lt_two).mp h

/-- The unit in the last place, for the smallest doubles. -/
def leastUnit : ℚ := 2 ^ (-1074 : Int)

/-- Rounding a number of at least 53 bits adds little to it. -/
theorem roundingBound_le_of_bits {m : Nat} {e : Int} (bits : 2 ^ 52 ≤ m) :
    roundingBound m e ≤ m * 2 ^ e * (1 + 2 ^ (-52 : Int)) + leastUnit := by
  have pos : 0 < m := Nat.lt_of_lt_of_le (by decide) bits
  have log2 : 52 ≤ m.log2 := (Nat.le_log2 pos.ne').mpr bits
  have unit : (2 : ℚ) ^ roundingExponent m e ≤ m * 2 ^ e * 2 ^ (-52 : Int) + leastUnit := by
    have exponent : roundingExponent m e = max (m.log2 + e - 52) (-1074) := by
      rw [roundingExponent]
      omega
    have last : (2 : ℚ) ^ ((m.log2 : Int) + e - 52) ≤ m * 2 ^ e * 2 ^ (-52 : Int) := by
      rw [sub_eq_add_neg, zpow_add₀ two_ne_zero]
      exact mul_le_mul_of_nonneg_right (leadingBit_le pos e) (zpow_nonneg (by norm_num) _)
    have least : 0 ≤ leastUnit := zpow_nonneg (by norm_num) _
    rcases max_cases ((m.log2 : Int) + e - 52) (-1074) with ⟨same, -⟩ | ⟨same, -⟩
    · rw [exponent, same]
      linarith
    · rw [exponent, same]
      have : (0 : ℚ) ≤ m * 2 ^ e * 2 ^ (-52 : Int) := by positivity
      exact le_add_of_nonneg_left this
  have bound := roundingBound_le m e
  linarith

theorem leastUnit_le : leastUnit ≤ 2 ^ (-60 : Int) :=
  zpow_le_zpow_right₀ one_le_two (by decide)

theorem range_of_le {v : ℚ} (h : v ≤ (2 ^ 64 : ℕ)) :
    v * (1 + 2 ^ (-52 : Int)) + leastUnit < 2 ^ 1024 := by
  have unit : leastUnit ≤ 1 := leastUnit_le.trans (by norm_num)
  calc v * (1 + 2 ^ (-52 : Int)) + leastUnit
      ≤ (2 ^ 64 : ℕ) * (1 + 2 ^ (-52 : Int)) + 1 :=
        add_le_add (mul_le_mul_of_nonneg_right h (by positivity)) unit
    _ < 2 ^ 100 := by norm_num
    _ < 2 ^ 1024 := pow_lt_pow_right₀ one_lt_two (by decide)

/-- Rounding a number of at least 53 bits that stays in range. -/
theorem within_round_of_bits (s : Sign) {m : Nat} {e : Int} (accuracy : Accuracy)
    (bits : 2 ^ 52 ≤ m)
    (range : (m : ℚ) * 2 ^ e * (1 + 2 ^ (-52 : Int)) + leastUnit < 2 ^ 1024) :
    Within ((m : ℚ) * 2 ^ e * (1 + 2 ^ (-52 : Int)) + leastUnit)
      (Float.Model.pack (roundWithAccuracy Format.binary64 s m e accuracy)).unpack := by
  have pos : 0 < m := Nat.lt_of_lt_of_le (by decide) bits
  have bound := roundingBound_le_of_bits (e := e) bits
  rcases within_or_isInf_round s m e accuracy with within | ⟨-, outside⟩
  · exact within.mono bound
  · have log2 : 52 ≤ m.log2 := (Nat.le_log2 (by omega)).mpr bits
    have top : (m.log2 : Int) + e < 1024 := by
      refine lt_of_two_zpow_lt (lt_of_le_of_lt (leadingBit_le pos _) ?_)
      have : (0 : ℚ) ≤ m * 2 ^ e * 2 ^ (-52 : Int) := by positivity
      have least : 0 ≤ leastUnit := zpow_nonneg (by norm_num) _
      exact lt_of_le_of_lt (by linarith) range
    exact absurd (outside (by rw [roundingExponent]; omega))
      (not_le.mpr (lt_of_le_of_lt bound range))

/-- A finite number with a mantissa of 53 bits and at least the given exponent. -/
def Normal (least : Int) (f : UnpackedFloat) : Prop :=
  ∃ s m e pos, f = .finite s m e pos ∧ 2 ^ 52 ≤ m ∧ least ≤ e

/-- A number of at least 53 bits that stays in range is rounded to 53 bits. -/
theorem normal_round (s : Sign) {m : Nat} {e : Int} (accuracy : Accuracy) (bits : 2 ^ 52 ≤ m)
    (least : -1022 ≤ m.log2 + e)
    (range : (m : ℚ) * 2 ^ e * (1 + 2 ^ (-52 : Int)) + leastUnit < 2 ^ 1024) :
    Normal (m.log2 + e - 52)
      (Float.Model.pack (roundWithAccuracy Format.binary64 s m e accuracy)).unpack := by
  have pos : 0 < m := Nat.lt_of_lt_of_le (by decide) bits
  have log2 : 52 ≤ m.log2 := (Nat.le_log2 pos.ne').mpr bits
  obtain ⟨r, lower, upper, rounded⟩ := roundWithAccuracy_eq s m e accuracy
  have within := within_round_of_bits s accuracy bits range
  have exponent : roundingExponent m e = m.log2 + e - 52 := by
    rw [roundingExponent]
    omega
  have kept : 2 ^ 52 ≤ m / 2 ^ droppedBits m e := by
    have dropped : m.log2 = 52 + droppedBits m e := by
      rw [droppedBits, exponent]
      omega
    rw [Nat.le_div_iff_mul_le (Nat.two_pow_pos _), ← Nat.pow_add, ← dropped]
    exact Nat.log2_self_le pos.ne'
  -- what is not finite is not within any bound
  have finite {n : Nat} {k : Int} (positive : 0 < n) (h : 2 ^ 52 ≤ n) (h' : n < 2 ^ 53)
      (hk : -1074 ≤ k) (w : Within ((m : ℚ) * 2 ^ e * (1 + 2 ^ (-52 : Int)) + leastUnit)
        (Float.Model.pack (.finite s n k positive)).unpack) :
      Normal k (Float.Model.pack (.finite s n k positive)).unpack := by
    by_cases inRange : k ≤ 971
    · obtain ⟨s', unpacked⟩ := unpack_pack_normal s positive h h' hk inRange
      exact ⟨s', n, k, positive, unpacked, h, le_rfl⟩
    · have infinite := unpack_pack s positive h' hk
      rw [if_neg inRange] at infinite
      revert infinite w
      generalize (Float.Model.pack (.finite s n k positive)).unpack = f
      cases f with
      | infinity => exact fun w => w.elim
      | _ => exact fun _ h => by cases h
  rw [rounded] at within ⊢
  rw [dif_neg (by omega)] at within ⊢
  split at within
  · next small =>
    rw [if_pos small]
    obtain ⟨s', n, k, positive, same, h, hk⟩ := finite _ (by omega) small (by omega) within
    exact ⟨s', n, k, positive, same, h, by omega⟩
  · next carry =>
    rw [if_neg carry]
    obtain ⟨s', n, k, positive, same, h, hk⟩ :=
      finite _ (by decide) (by decide) (by omega) within
    exact ⟨s', n, k, positive, same, h, by omega⟩

/-! ## Products and quotients -/

/-- **A product that stays in range is finite.** -/
theorem within_mul {x y : Float} {a b : ℚ} (hx : Within a x.toModel.unpack)
    {least : Int} (normal : Normal least y.toModel.unpack) (hy : Within b y.toModel.unpack)
    (range : a * b * (1 + 2 ^ (-52 : Int)) + leastUnit < 2 ^ 1024) :
    Within (a * b * (1 + 2 ^ (-52 : Int)) + leastUnit) (x * y).toModel.unpack := by
  obtain ⟨t, n, k, pos, same, bits, -⟩ := normal
  have product : (x * y).toModel.unpack = (Float.Model.pack
      (UnpackedFloat.mul Format.binary64 x.toModel.unpack y.toModel.unpack)).unpack := rfl
  have unit : 0 ≤ leastUnit := zpow_nonneg (by norm_num) _
  rw [same, Within] at hy
  have b_nonneg : 0 ≤ b := le_trans (by positivity) hy
  rw [product, same]
  generalize x.toModel.unpack = f at hx
  cases f with
  | zero s =>
    rw [Within] at hx
    rw [UnpackedFloat.mul, unpack_pack_zero, Within]
    positivity
  | finite s m e positive =>
    rw [Within] at hx
    have value : ((m * n : ℕ) : ℚ) * 2 ^ (e + k) ≤ a * b := by
      have := mul_le_mul hx hy (by positivity) (le_trans (by positivity) hx)
      rw [zpow_add₀ two_ne_zero]
      push_cast
      linarith
    have many : 2 ^ 52 ≤ m * n := Nat.le_trans bits (Nat.le_mul_of_pos_left n positive)
    have bound : ((m * n : ℕ) : ℚ) * 2 ^ (e + k) * (1 + 2 ^ (-52 : Int)) + leastUnit ≤
        a * b * (1 + 2 ^ (-52 : Int)) + leastUnit := by
      have := mul_le_mul_of_nonneg_right value
        (show (0 : ℚ) ≤ 1 + 2 ^ (-52 : Int) by positivity)
      linarith
    exact (within_round_of_bits (s * t) .exact many (lt_of_le_of_lt bound range)).mono bound
  | infinity => exact hx.elim
  | notANumber => exact hx.elim

/-- A quotient is taken at an exponent with bits enough. -/
theorem divCore_eq (m : Nat) (e : Int) (n : Nat) (k : Int) :
    ∃ scale ≤ e - k, scale ≤ max ((m.log2 + e) - (n.log2 + k) - 53) (-1074) ∧ ∃ accuracy,
      UnpackedFloat.divCore Format.binary64 m e n k =
        (m * 2 ^ (e - k - scale).toNat / n, scale, accuracy) := by
  have target : Format.binary64.targetExponent (totalExponent m e - totalExponent n k) =
      max ((m.log2 + e) - (n.log2 + k) - 53) (-1074) := by
    simp only [Format.targetExponent, totalExponent, Format.mantissaBits, Format.minExponent]
    norm_num
    omega
  refine ⟨min (e - k) (max ((m.log2 + e) - (n.log2 + k) - 53) (-1074)), min_le_left _ _,
    min_le_right _ _, (UnpackedFloat.divCore Format.binary64 m e n k).2.2, ?_⟩
  rw [UnpackedFloat.divCore]
  simp only [target, Nat.shiftLeft_eq]

/-- The numbers of moderate size, in which nothing overflows. -/
def Moderate (f : UnpackedFloat) : Prop :=
  Within (2 ^ 100) f

/-- The leading bit of a number below a power of two. -/
theorem log2_add_le_of_le {m n : Nat} {e : Int} (pos : 0 < m) (h : (m : ℚ) * 2 ^ e ≤ 2 ^ n) :
    (m.log2 : Int) + e ≤ n := by
  have := lt_of_two_zpow_lt (lt_of_le_of_lt ((leadingBit_le pos e).trans h)
    (show (2 : ℚ) ^ n < 2 ^ ((n + 1 : ℕ) : Int) by
      rw [zpow_natCast]
      exact pow_lt_pow_right₀ one_lt_two (Nat.lt_succ_self n)))
  omega

/-- **The quotient of a number of moderate size by at least four is of moderate size.** -/
theorem moderate_div {x y : Float} (hx : Moderate x.toModel.unpack)
    (hy : Normal (-50) y.toModel.unpack) :
    Moderate (x / y).toModel.unpack := by
  obtain ⟨t, n, k, pos, same, bits, large⟩ := hy
  have four : (4 : ℚ) ≤ n * 2 ^ k :=
    calc (4 : ℚ) = 2 ^ 52 * 2 ^ (-50 : Int) := by norm_num
      _ ≤ n * 2 ^ k := mul_le_mul (by exact_mod_cast bits) (zpow_le_zpow_right₀ one_le_two large)
        (by positivity) (by positivity)
  have quotient : (x / y).toModel.unpack = (Float.Model.pack
      (UnpackedFloat.div Format.binary64 x.toModel.unpack y.toModel.unpack)).unpack := rfl
  rw [quotient, same]
  generalize x.toModel.unpack = f at hx
  cases f with
  | zero s =>
    rw [UnpackedFloat.div, unpack_pack_zero]
    exact hx
  | finite s m e positive =>
    rw [Moderate, Within] at hx
    obtain ⟨scale, le, fine, accuracy, core⟩ := divCore_eq m e n k
    rw [UnpackedFloat.div, core]
    dsimp only
    generalize shifted : m * 2 ^ (e - k - scale).toNat / n = q
    have value : (q : ℚ) * 2 ^ scale ≤ 2 ^ 98 := by
      have whole : (q : ℚ) * n ≤ m * 2 ^ (e - k - scale) := by
        rw [show e - k - scale = ((e - k - scale).toNat : Int) by omega, zpow_natCast]
        exact_mod_cast shifted ▸ Nat.div_mul_le_self _ n
      have back : (q : ℚ) * 2 ^ scale * (n * 2 ^ k) ≤ m * 2 ^ e := by
        have := mul_le_mul_of_nonneg_right whole
          (show (0 : ℚ) ≤ 2 ^ scale * 2 ^ k by positivity)
        rw [mul_assoc (m : ℚ), ← zpow_add₀ two_ne_zero, ← zpow_add₀ two_ne_zero,
          show e - k - scale + (scale + k) = e by omega] at this
        rw [zpow_add₀ two_ne_zero] at this
        linarith
      have := mul_le_mul_of_nonneg_left four (show (0 : ℚ) ≤ q * 2 ^ scale by positivity)
      norm_num at *
      linarith
    have top : roundingExponent q scale ≤ 98 := by
      have numerator := log2_add_le_of_le positive hx
      have denominator : 2 < (n.log2 : Int) + 1 + k := by
        refine lt_of_two_zpow_lt (lt_of_le_of_lt (show (2 : ℚ) ^ (2 : Int) ≤ 4 by norm_num)
          (lt_of_le_of_lt four ?_))
        rw [zpow_add₀ two_ne_zero]
        refine mul_lt_mul_of_pos_right ?_ (by positivity)
        exact_mod_cast Nat.lt_log2_self (n := n)
      have result : (q.log2 : Int) + scale ≤ 98 := by
        rcases Nat.eq_zero_or_pos q with zero | pos
        · rw [zero, Nat.log2_zero]
          omega
        · exact log2_add_le_of_le pos value
      rw [roundingExponent]
      omega
    have bound : roundingBound q scale ≤ 2 ^ 100 := by
      have := roundingBound_le q scale
      have := zpow_le_zpow_right₀ (one_le_two (α := ℚ)) top
      norm_num at *
      linarith
    rcases within_or_isInf_round (s / t) q scale accuracy with within | ⟨-, outside⟩
    · exact within.mono bound
    · have beyond := (outside (by omega)).trans bound
      exact absurd beyond (not_le.mpr (pow_lt_pow_right₀ one_lt_two (by decide)))
  | infinity => exact hx.elim
  | notANumber => exact hx.elim

/-! ## Significands and powers of ten -/

theorem bits_shiftLeft {n : Nat} (pos : 0 < n) (k : Nat) (h : 52 ≤ n.log2 + k) :
    2 ^ 52 ≤ n <<< k := by
  rw [Nat.shiftLeft_eq]
  calc 2 ^ 52 ≤ 2 ^ (n.log2 + k) := Nat.pow_le_pow_right (by decide) h
    _ = 2 ^ n.log2 * 2 ^ k := Nat.pow_add ..
    _ ≤ n * 2 ^ k := Nat.mul_le_mul_right _ (Nat.log2_self_le pos.ne')

theorem within_toFloat {n : Nat} (pos : 0 < n) (h : n < 2 ^ 53) :
    Within (n * (1 + 2 ^ (-52 : Int)) + leastUnit) n.toUInt64.toFloat.toModel.unpack := by
  have whole : n.toUInt64.toNat = n := by
    simp
    omega
  have conversion : n.toUInt64.toFloat.toModel.unpack = (Float.Model.pack
      (UnpackedFloat.normalize Format.binary64 (n.toUInt64.toNat : Int) 0 .positive)).unpack := rfl
  rw [conversion, whole, UnpackedFloat.normalize, Int.compare_eq_gt.mpr (by omega)]
  have log2 : n.log2 < 53 := (Nat.log2_lt pos.ne').mpr h
  have shift : (0 - Format.binary64.targetExponent (totalExponent n 0)).toNat = 52 - n.log2 := by
    rw [targetExponent_eq]
    omega
  simp only [UnpackedFloat.round, UnpackedFloat.decreaseExponent, Int.toNat_natCast, shift]
  have value : ((n <<< (52 - n.log2) : ℕ) : ℚ) * 2 ^ (0 - ((52 - n.log2 : ℕ) : Int)) = n := by
    rw [Nat.shiftLeft_eq, zero_sub, zpow_neg, zpow_natCast]
    push_cast
    exact mul_inv_cancel_right₀ (by positivity) _
  have within := within_round_of_bits .positive (e := 0 - ((52 - n.log2 : ℕ) : Int)) .exact
    (bits_shiftLeft pos (52 - n.log2) (by omega))
  rw [value] at within
  exact within (range_of_le (Nat.cast_le.mpr (show n ≤ 2 ^ 64 by omega)))

/-- The relative error of a conversion. -/
def conversionError : ℚ := 3 * 2 ^ (-52 : Int)

/-- A decimal that is not exact is converted by one rounding. -/
theorem unpack_ofScientific {n k : Nat} (pos : 0 < n) (hk : k ≤ 2048)
    (inexact : ¬ (n < 2 ^ 53 ∧ k ≤ 22)) :
    (Float.ofScientific n false k).toModel.unpack = (Float.Model.pack (roundWithAccuracy
      Format.binary64 (.positive * .positive) (n <<< 53 * 10 ^ k) (-53) .exact)).unpack := by
  unfold Float.ofScientific
  rw [dif_neg inexact]
  show (Float.Model.ofScientific n (Int.ofNat k)).unpack = _
  unfold Float.Model.ofScientific UnpackedFloat.ofScientific
  rw [dif_neg (by omega), if_neg, if_neg, if_pos (show 0 ≤ Int.ofNat k from Int.natCast_nonneg k)]
  · simp only [UnpackedFloat.mul, Int.toNat_natCast, Int.ofNat_eq_natCast, Int.add_zero]
    rfl
  · simp only [Int.ofNat_eq_natCast]
    omega
  · simp only [Int.ofNat_eq_natCast]
    omega

theorem bits_decimal {n : Nat} (pos : 0 < n) (k : Nat) : 2 ^ 52 ≤ n <<< 53 * 10 ^ k :=
  Nat.le_trans (bits_shiftLeft pos 53 (by omega))
    (Nat.le_mul_of_pos_right _ (Nat.pow_pos (by decide)))

theorem value_decimal (n k : Nat) :
    ((n <<< 53 * 10 ^ k : ℕ) : ℚ) * 2 ^ (-53 : Int) = n * 10 ^ k := by
  rw [Nat.shiftLeft_eq, zpow_neg]
  push_cast
  rw [mul_right_comm, mul_assoc (n : ℚ)]
  norm_num

/-- **The double of a significand is about as large.** -/
theorem within_ofNat {n : Nat} (pos : 0 < n) (h : n < 2 ^ 64) :
    Within (n * (1 + conversionError)) (Float.ofNat n).toModel.unpack := by
  have one : (1 : ℚ) ≤ n := by exact_mod_cast pos
  have unit := leastUnit_le
  show Within _ (Float.ofScientific n false 0).toModel.unpack
  by_cases exact_ : n < 2 ^ 53 ∧ 0 ≤ 22
  · have unpacked : Float.exactlyRepresentablePowersOfTen[0].toModel.unpack =
        .finite .positive (2 ^ 52) (-52) (by decide) := rfl
    have within : Within 1 Float.exactlyRepresentablePowersOfTen[0].toModel.unpack := by
      rw [unpacked, Within]
      norm_num
    have product := within_mul (within_toFloat pos exact_.1)
      ⟨_, _, _, _, unpacked, le_rfl, le_rfl⟩ within
    have small : (n : ℚ) ≤ 9007199254740992 := by exact_mod_cast exact_.1.le
    unfold Float.ofScientific
    rw [dif_pos exact_]
    rw [mul_one] at product
    refine (product (range_of_le ?_)).mono ?_
    · norm_num at unit ⊢
      linarith
    · norm_num [conversionError] at unit ⊢
      linarith
  · have within := within_round_of_bits (.positive * .positive) (e := -53) .exact
      (bits_decimal pos 0)
    rw [value_decimal, pow_zero, mul_one] at within
    rw [unpack_ofScientific pos (by omega) exact_]
    refine (within (range_of_le (Nat.cast_le.mpr (by omega)))).mono ?_
    norm_num [conversionError] at unit ⊢
    linarith

/-- A finite number is the given power of ten, with a mantissa of 53 bits. -/
def isPowerOfTen (k : Nat) : UnpackedFloat → Bool
  | .finite _ m e _ =>
    2 ^ 52 ≤ m && m * 2 ^ e.toNat == 10 ^ k * 2 ^ (-e).toNat && (if k = 0 then -52 else -50) ≤ e
  | _ => false

/-- The powers of ten that are doubles. -/
theorem isPowerOfTen_ofScientific : ∀ k < 23,
    isPowerOfTen k (Float.ofScientific 1 false k).toModel.unpack = true := by
  decide

/-- A power with a positive or a negative exponent. -/
theorem zpow_mul_toNat {b : ℚ} (nonzero : b ≠ 0) (e : Int) :
    b ^ e * b ^ (-e).toNat = b ^ e.toNat := by
  rcases Int.le_total 0 e with nonneg | nonpos
  · rw [show (-e).toNat = 0 by omega, pow_zero, mul_one, ← zpow_natCast b e.toNat,
      Int.toNat_of_nonneg nonneg]
  · rw [show e.toNat = 0 by omega, pow_zero, ← zpow_natCast, ← zpow_add₀ nonzero,
      Int.toNat_of_nonneg (by omega), add_neg_cancel, zpow_zero]

/-- **The double of a power of ten is about as large, and has 53 bits.** -/
theorem powerOfTen {k : Nat} (h : k ≤ 308) :
    Within (10 ^ k * (1 + conversionError)) (Float.ofScientific 1 false k).toModel.unpack ∧
      Normal (if k = 0 then -52 else -50) (Float.ofScientific 1 false k).toModel.unpack := by
  have error : 0 ≤ (10 : ℚ) ^ k * conversionError := by
    unfold conversionError
    positivity
  rcases Nat.lt_or_ge k 23 with small | large
  · have evaluated := isPowerOfTen_ofScientific k small
    generalize (Float.ofScientific 1 false k).toModel.unpack = f at evaluated
    cases f with
    | finite s m e pos =>
      simp only [isPowerOfTen, Bool.and_eq_true, decide_eq_true_eq, beq_iff_eq] at evaluated
      obtain ⟨⟨bits, same⟩, least⟩ := evaluated
      refine ⟨?_, s, m, e, pos, rfl, bits, least⟩
      have value : (m : ℚ) * 2 ^ e = 10 ^ k := by
        have scaled : (m : ℚ) * 2 ^ e.toNat = 10 ^ k * 2 ^ (-e).toNat := by exact_mod_cast same
        rw [← zpow_mul_toNat two_ne_zero, ← mul_assoc] at scaled
        exact mul_right_cancel₀ (by positivity) scaled
      rw [Within, value]
      linarith
    | _ => cases evaluated
  · have unit := leastUnit_le
    have one : (1 : ℚ) ≤ 10 ^ k := one_le_pow₀ (by norm_num)
    have range : ((1 : ℕ) : ℚ) * 10 ^ k * (1 + 2 ^ (-52 : Int)) + leastUnit < 2 ^ 1024 := by
      have top : (7 : ℚ) * 10 ^ 308 < 4 * 2 ^ 1024 := by
        exact_mod_cast (by decide +kernel : 7 * 10 ^ 308 < 4 * 2 ^ 1024)
      have le : (10 : ℚ) ^ k ≤ 10 ^ 308 := pow_le_pow_right₀ (by norm_num) h
      generalize (10 : ℚ) ^ 308 = ten at top le
      generalize (2 : ℚ) ^ 1024 = two at top ⊢
      norm_num at unit ⊢
      linarith
    have bits := bits_decimal Nat.one_pos k
    have inexact : ¬ (1 < 2 ^ 53 ∧ k ≤ 22) := by omega
    rw [unpack_ofScientific Nat.one_pos (by omega) inexact]
    have value := value_decimal 1 k
    constructor
    · have within := within_round_of_bits (.positive * .positive) (e := -53) .exact bits
      rw [value] at within
      refine (within range).mono ?_
      norm_num [conversionError] at unit ⊢
      linarith
    · have log2 : 104 ≤ (1 <<< 53 * 10 ^ k).log2 := by
        rw [Nat.le_log2 (by omega)]
        calc 2 ^ 104 ≤ 1 <<< 53 * 10 ^ 23 := by decide
          _ ≤ 1 <<< 53 * 10 ^ k := Nat.mul_le_mul_left _ (Nat.pow_le_pow_right (by decide) large)
      have normal := normal_round (.positive * .positive) (e := -53) .exact bits (by omega)
        (by rw [value]; exact range)
      obtain ⟨s, m, e, pos, same, bits, least⟩ := normal
      rw [if_neg (by omega)]
      exact ⟨s, m, e, pos, same, bits, by omega⟩

/-! ## Signs and finiteness -/

/-- A number that is neither infinite nor undefined. -/
theorem isFinite_iff_within {f : UnpackedFloat} : f.isFinite = true ↔ ∃ v, Within v f := by
  refine ⟨fun finite => ?_, fun ⟨v, within⟩ => ?_⟩
  · cases f with
    | zero => exact ⟨0, le_refl (0 : ℚ)⟩
    | finite s m e => exact ⟨m * 2 ^ e, le_refl _⟩
    | infinity => cases finite
    | notANumber => cases finite
  · cases f with
    | zero => rfl
    | finite => rfl
    | infinity => exact within.elim
    | notANumber => exact within.elim

theorem Within.isInf {v : ℚ} {f : UnpackedFloat} (h : Within v f) : f.isInf = false := by
  cases f with
  | zero => rfl
  | finite => rfl
  | infinity => exact h.elim
  | notANumber => exact h.elim

/-- A rounded number is finite or infinite. -/
theorem isFinite_round {s : Sign} {m : Nat} {e : Int} {accuracy : Accuracy}
    (h : (Float.Model.pack (roundWithAccuracy Format.binary64 s m e accuracy)).unpack.isInf =
      false) :
    (Float.Model.pack (roundWithAccuracy Format.binary64 s m e accuracy)).unpack.isFinite =
      true := by
  rcases within_or_isInf_round s m e accuracy with within | ⟨infinite, -⟩
  · exact isFinite_iff_within.mpr ⟨_, within⟩
  · rw [h] at infinite
    cases infinite

/-- A product of finite numbers is finite or infinite. -/
theorem isFinite_mul {x y : Float} (hx : x.isFinite = true) {least : Int}
    (normal : Normal least y.toModel.unpack) (h : (x * y).isInf = false) :
    (x * y).isFinite = true := by
  obtain ⟨t, n, k, pos, same, -, -⟩ := normal
  have product : (x * y).toModel.unpack = (Float.Model.pack
      (UnpackedFloat.mul Format.binary64 x.toModel.unpack y.toModel.unpack)).unpack := rfl
  unfold Float.isFinite Float.isInf Float.Model.isFinite Float.Model.isInf at *
  rw [product, same] at h ⊢
  generalize x.toModel.unpack = f at *
  cases f with
  | zero s => rw [UnpackedFloat.mul, unpack_pack_zero]; rfl
  | finite s m e => exact isFinite_round h
  | infinity => cases hx
  | notANumber => cases hx

/-- A quotient of finite numbers, not by zero, is finite or infinite. -/
theorem isFinite_div {x y : Float} (hx : x.isFinite = true) {least : Int}
    (normal : Normal least y.toModel.unpack) (h : (x / y).isInf = false) :
    (x / y).isFinite = true := by
  obtain ⟨t, n, k, pos, same, -, -⟩ := normal
  have quotient : (x / y).toModel.unpack = (Float.Model.pack
      (UnpackedFloat.div Format.binary64 x.toModel.unpack y.toModel.unpack)).unpack := rfl
  unfold Float.isFinite Float.isInf Float.Model.isFinite Float.Model.isInf at *
  rw [quotient, same] at h ⊢
  generalize x.toModel.unpack = f at *
  cases f with
  | zero s => rw [UnpackedFloat.div, unpack_pack_zero]; rfl
  | finite s m e => exact isFinite_round h
  | infinity => cases hx
  | notANumber => cases hx

/-- The eleven bits of the exponent. -/
theorem toNat_unpackExponent (b : BitVec 64) :
    (@UnpackedFloat.unpackExponent Format.binary64 b).toNat =
      b.toNat / 2 ^ 52 % 2048 := by
  unfold UnpackedFloat.unpackExponent
  simp [Nat.shiftRight_eq_div_pow]

theorem toNat_lt_of_ne_ones {exponent : BitVec 11} (h : exponent ≠ -1#11) :
    exponent.toNat < 2047 := by
  have := exponent.isLt
  by_contra big
  exact h (BitVec.eq_of_toNat_eq (by rw [show (-1#11).toNat = 2047 from rfl]; omega))

/-- A finite number has a mantissa of at most 53 bits and an exponent in range. -/
theorem bounds_of_unpack {x : Float.Model} {s : Sign} {m : Nat} {e : Int} {pos : 0 < m}
    (h : x.unpack = .finite s m e pos) : m < 2 ^ 53 ∧ -1074 ≤ e ∧ e ≤ 971 := by
  have bias : ((Format.binary64.exponentBias : ℕ) : Int) +
      (Format.binary64.mantissaBitsWithoutImplicit : ℕ) = 1075 := rfl
  unfold Float.Model.unpack UnpackedFloat.unpack at h
  simp only [bias] at h
  split at h
  · split at h <;> cases h
  · next notOnes =>
    have inRange := toNat_lt_of_ne_ones notOnes
    split at h
    · split at h
      · cases h
      · next zero _ =>
        have small := (@UnpackedFloat.unpackMantissa Format.binary64
          x.toBits.toBitVec).isLt
        injection h with _ mantissa exponent
        rw [zero] at exponent
        simp at exponent small
        omega
    · next positive =>
      have least : 0 < (@UnpackedFloat.unpackExponent Format.binary64
          x.toBits.toBitVec).toNat := by
        rw [Nat.pos_iff_ne_zero]
        exact fun zero => positive (BitVec.eq_of_toNat_eq zero)
      have small := (1#1 ++ @UnpackedFloat.unpackMantissa Format.binary64
          x.toBits.toBitVec).isLt
      injection h with _ mantissa exponent
      rw [mantissa] at small
      omega

/-- The bits of the exponent of a finite double are not all set. -/
theorem exponentBits_of_isFinite {x : Float} (h : x.isFinite = true) :
    x.toBits.toNat / 2 ^ 52 % 2048 < 2047 := by
  have bits := toNat_unpackExponent x.toModel.toBits.toBitVec
  have ones : @UnpackedFloat.unpackExponent Format.binary64
      x.toModel.toBits.toBitVec ≠ -1#11 := by
    intro ones
    unfold Float.isFinite Float.Model.isFinite Float.Model.unpack UnpackedFloat.unpack at h
    dsimp only at h
    rw [if_pos ones] at h
    split at h <;> cases h
  have := toNat_lt_of_ne_ones ones
  rw [bits] at this
  exact this

theorem isFinite_neg {x : Float} (h : x.isFinite = true) : (-x).isFinite = true := by
  have negation : (-x).toModel.unpack = (Float.Model.pack x.toModel.unpack.neg).unpack := rfl
  unfold Float.isFinite Float.Model.isFinite at *
  rw [negation]
  cases unpacked : x.toModel.unpack with
  | zero s => rw [UnpackedFloat.neg, unpack_pack_zero]; rfl
  | finite s m e pos =>
    obtain ⟨bits, least, inRange⟩ := bounds_of_unpack unpacked
    have packed := unpack_pack (-s) pos bits least
    rw [if_pos inRange] at packed
    exact isFinite_iff_within.mpr ⟨_, packed⟩
  | infinity => rw [unpacked] at h; cases h
  | notANumber => rw [unpacked] at h; cases h

end CapabilityPipeline.Json
