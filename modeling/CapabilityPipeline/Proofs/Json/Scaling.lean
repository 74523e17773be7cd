import CapabilityPipeline.Proofs.Json.Literals
import CapabilityPipeline.Proofs.Json.Rounding

/-!
# Which literals have a number

The reader forms a double from the first digits of a literal, up to 64 bits of them, and scales it
by a power of ten. It refuses the literal when the result overflows.

Results:

* `Literal.isFinite_of_number`: a double that is read is finite.
* `Literal.number_of_short`: a literal with a short integer part and no positive exponent has a
  number.
* `Literal.inReach`, `Literal.scaled_of_nonneg`: so has a literal whose significand can be scaled
  without coming near the sixteen largest doubles.
-/

namespace CapabilityPipeline.Json

/-! ## Scaling -/

theorem moderate_ofNat {n : Nat} (h : n < 2 ^ 64) : Moderate (Float.ofNat n).toModel.unpack := by
  rcases Nat.eq_zero_or_pos n with rfl | pos
  · have zero : (Float.ofNat 0).toModel.unpack = .zero .positive := rfl
    rw [zero]
    exact le_of_lt (pow_pos two_pos 100)
  · refine (within_ofNat pos h).mono ?_
    have : (n : ℚ) ≤ 18446744073709551616 := by exact_mod_cast h.le
    norm_num [conversionError]
    linarith

theorem isFinite_of_moderate {x : Float} (h : Moderate x.toModel.unpack) : x.isFinite = true :=
  isFinite_iff_within.mpr ⟨_, h⟩

theorem moderate_div_powerOfTen {x : Float} (h : Moderate x.toModel.unpack) {k : Nat}
    (pos : k ≠ 0) (le : k ≤ 308) : Moderate (x / Float.ofScientific 1 false k).toModel.unpack := by
  have normal := (powerOfTen le).2
  rw [if_neg pos] at normal
  exact moderate_div h normal

namespace Literal

/-- **What is scaled is finite.** -/
theorem isFinite_of_scale {steps : Nat} {x y : Float} {power : Int}
    (h : Moderate x.toModel.unpack) (scaled : scale steps x power = some y) :
    y.isFinite = true := by
  induction steps generalizing x power with
  | zero =>
    cases scaled
    exact isFinite_of_moderate h
  | succ steps ih =>
    rw [scale] at scaled
    split at scaled
    · next near =>
      have normal := (powerOfTen near).2
      dsimp only at scaled
      split at scaled
      · cases hf : (x * Float.ofScientific 1 false power.natAbs).isInf with
        | true => rw [hf] at scaled; cases scaled
        | false =>
          rw [hf] at scaled
          cases scaled
          exact isFinite_mul (isFinite_of_moderate h) normal hf
      · cases hf : (x / Float.ofScientific 1 false power.natAbs).isInf with
        | true => rw [hf] at scaled; cases scaled
        | false =>
          rw [hf] at scaled
          cases scaled
          exact isFinite_div (isFinite_of_moderate h) normal hf
    · split at scaled
      · cases scaled
        exact isFinite_of_moderate h
      · split at scaled
        · cases scaled
        · exact ih (moderate_div_powerOfTen h (by decide) le_rfl) scaled

/-- **A significand can be divided by any power of ten.** -/
theorem scale_isSome_of_neg (steps : Nat) {x : Float} {power : Int}
    (h : Moderate x.toModel.unpack) (negative : power < 0) :
    (scale steps x power).isSome = true := by
  induction steps generalizing x power with
  | zero => rfl
  | succ steps ih =>
    rw [scale]
    split
    · next near =>
      have inRange : (x / Float.ofScientific 1 false power.natAbs).isInf = false :=
        Within.isInf (moderate_div_powerOfTen h (by omega) near)
      simp only [if_neg (show ¬ 0 ≤ power by omega), inRange, Bool.false_eq_true, if_false]
      rfl
    · next far =>
      split
      · rfl
      · rw [if_neg (by omega)]
        exact ih (moderate_div_powerOfTen h (by decide) le_rfl) (by omega)

/-- The numbers below the sixteen largest doubles. -/
def inReach : ℚ := (2 ^ 53 - 31 / 2) * 2 ^ 971

theorem inReach_lt : inReach < 10 ^ 309 := by
  have reach : inReach ≤ 2 ^ 53 * 2 ^ 971 :=
    mul_le_mul_of_nonneg_right (by norm_num) (by positivity)
  refine lt_of_le_of_lt reach ?_
  exact_mod_cast (by decide +kernel : 2 ^ 53 * 2 ^ 971 < 10 ^ 309)

/-- **A significand can be multiplied by a power of ten as long as the product is in reach.** -/
theorem scale_isSome_of_nonneg (steps : Nat) {n k : Nat} (h : n < 2 ^ 64)
    (le : (n : ℚ) * 10 ^ k ≤ inReach) :
    (scale (steps + 1) (Float.ofNat n) k).isSome = true := by
  rw [scale, Int.natAbs_natCast]
  split
  · next near =>
    obtain ⟨within, normal⟩ := powerOfTen near
    have inRange : (Float.ofNat n * Float.ofScientific 1 false k).isInf = false := by
      rcases Nat.eq_zero_or_pos n with rfl | pos
      · have zero : Within 0 (Float.ofNat 0).toModel.unpack := le_refl (0 : ℚ)
        refine (within_mul zero normal within ?_).isInf
        rw [zero_mul, zero_mul, zero_add]
        exact lt_of_le_of_lt (leastUnit_le.trans (by norm_num)) (one_lt_pow₀ one_lt_two (by decide))
      · refine (within_mul (within_ofNat pos h) normal within ?_).isInf
        have unit := leastUnit_le
        have top : (2 : ℚ) ^ 1024 = 2 ^ 53 * 2 ^ 971 := pow_add 2 53 971
        have large : (1 : ℚ) ≤ 2 ^ 971 := one_le_pow₀ one_le_two
        have product : (n : ℚ) * (1 + conversionError) * (10 ^ k * (1 + conversionError)) ≤
            inReach * (1 + conversionError) ^ 2 := by
          have := mul_le_mul_of_nonneg_right le (sq_nonneg (1 + conversionError))
          linarith
        rw [top]
        unfold inReach at product
        generalize (2 : ℚ) ^ 971 = unitInTheLastPlace at product large ⊢
        norm_num [conversionError] at unit product ⊢
        linarith
    simp only [if_pos (Int.natCast_nonneg k), inRange, Bool.false_eq_true, if_false]
    rfl
  · next far =>
    have zero : n = 0 := by
      by_contra nonzero
      have one : (1 : ℚ) ≤ n := by exact_mod_cast Nat.pos_of_ne_zero nonzero
      have power : (10 : ℚ) ^ 309 ≤ 10 ^ k := pow_le_pow_right₀ (by norm_num) (by omega)
      have product : 1 * (10 : ℚ) ^ 309 ≤ n * 10 ^ k :=
        mul_le_mul one power (by positivity) (by positivity)
      rw [one_mul] at product
      exact absurd (product.trans le) (not_le.mpr inReach_lt)
    subst zero
    rw [if_pos (by decide)]
    rfl

/-! ## Digits -/

/-- A digit after the digits of a number. -/
def shiftIn (n d : Nat) : Nat := n * 10 + d

/-- What is not accumulated is still to be shifted in. -/
theorem foldl_accumulate (limit n : Nat) (ds : List Nat) :
    (accumulate limit n ds).2.foldl shiftIn (accumulate limit n ds).1 = ds.foldl shiftIn n := by
  induction ds generalizing n with
  | nil => rfl
  | cons d ds ih =>
    rw [accumulate]
    split
    · exact ih _
    · rfl

theorem accumulate_lt {limit n : Nat} (h : n < limit) (ds : List Nat) :
    (accumulate limit n ds).1 < limit := by
  induction ds generalizing n with
  | nil => exact h
  | cons d ds ih =>
    rw [accumulate]
    split
    · next lt => exact ih lt
    · exact h

theorem length_accumulate_le (limit n : Nat) (ds : List Nat) :
    (accumulate limit n ds).2.length ≤ ds.length := by
  induction ds generalizing n with
  | nil => exact Nat.le_refl 0
  | cons d ds ih =>
    rw [accumulate]
    split
    · exact Nat.le_succ_of_le (ih _)
    · exact Nat.le_refl _

theorem mul_pow_le_foldl (n : Nat) (ds : List Nat) : n * 10 ^ ds.length ≤ ds.foldl shiftIn n := by
  induction ds generalizing n with
  | nil => rw [List.length_nil, Nat.pow_zero, Nat.mul_one, List.foldl_nil]
  | cons d ds ih =>
    rw [List.foldl_cons, List.length_cons]
    refine Nat.le_trans ?_ (ih _)
    rw [Nat.pow_succ', ← Nat.mul_assoc, shiftIn]
    exact Nat.mul_le_mul_right _ (Nat.le_add_right _ _)

theorem foldl_lt {ds : List Nat} (digits : ∀ d ∈ ds, d < 10) (n : Nat) :
    ds.foldl shiftIn n < (n + 1) * 10 ^ ds.length := by
  induction ds generalizing n with
  | nil => rw [List.length_nil, Nat.pow_zero, Nat.mul_one, List.foldl_nil]; exact Nat.lt_succ_self n
  | cons d ds ih =>
    obtain ⟨digit, digits⟩ := List.forall_mem_cons.mp digits
    rw [List.foldl_cons, List.length_cons]
    refine Nat.lt_of_lt_of_le (ih digits _) ?_
    rw [Nat.pow_succ', ← Nat.mul_assoc, shiftIn]
    exact Nat.mul_le_mul_right _ (by omega)

/-- Nineteen digits always fit. -/
theorem accumulate_short {ds : List Nat} (digits : ∀ d ∈ ds, d < 10) (short : ds.length ≤ 19) :
    accumulate wordLimit64 0 ds = (ds.foldl shiftIn 0, []) := by
  refine accumulate_eq ds 0 (Nat.lt_of_lt_of_le (foldl_lt digits 0) ?_)
  rw [Nat.zero_add, Nat.one_mul]
  exact Nat.le_trans (Nat.pow_le_pow_right (by decide) short) (by decide)

/-! ## The number of a literal -/

/-- The digits that are looked at, and the power of ten they are scaled by. -/
def significand (l : Literal) : Nat × Int :=
  let (n, unread) := accumulate wordLimit64 0 l.whole
  match l.fraction with
  | none => (n, unread.length)
  | some digits =>
    let (n, dropped) := accumulate wordLimit64 n digits
    (n, unread.length - (digits.length - dropped.length : Nat))

theorem significand_lt (l : Literal) : l.significand.1 < 2 ^ 64 := by
  have whole : (accumulate wordLimit64 0 l.whole).1 < wordLimit64 := accumulate_lt (by decide) _
  unfold significand
  cases l.fraction with
  | none => exact whole
  | some digits => exact accumulate_lt whole digits

/-- The significand as a double, scaled and with its sign. -/
def scaled (l : Literal) (power : Int) : Except (List Nat) Number :=
  match scale (power.natAbs + 1) (Float.ofNat l.significand.1) power with
  | some x => .ok (signed l.negative x)
  | none => .error []

/-- The significand with its sign. -/
def integer (l : Literal) : Int :=
  if l.negative then -l.significand.1 else l.significand.1

/-- The number of a literal, by its significand. -/
theorem number_eq (l : Literal) : l.number =
    match l.exponent with
    | some (negative, digits) =>
      if (accumulate maxShift 0 digits).2.isEmpty then
        l.scaled (if negative then l.significand.2 - (accumulate maxShift 0 digits).1
          else l.significand.2 + (accumulate maxShift 0 digits).1)
      else if l.significand.1 ≠ 0 ∧ !negative then .error ((accumulate maxShift 0 digits).2.drop 1)
      else .ok (signed l.negative 0)
    | none =>
      if l.fraction.isNone ∧ (accumulate wordLimit64 0 l.whole).2.isEmpty then
        if h : InRange l.integer ∧ ¬(l.negative ∧ l.integer = 0) then .ok (.integer _ h.1)
        else l.scaled 0
      else l.scaled l.significand.2 := by
  obtain ⟨negative, whole, fraction, exponent⟩ := l
  cases fraction <;> cases exponent <;> rfl

theorem isFinite_signed {negative : Bool} {x y : Float} (h : x.isFinite = true)
    (same : signed negative x = .double y) : y.isFinite = true := by
  cases same
  cases negative with
  | true => exact isFinite_neg h
  | false => exact h

theorem isFinite_of_scaled {l : Literal} {power : Int} {y : Float}
    (h : l.scaled power = .ok (.double y)) : y.isFinite = true := by
  unfold scaled at h
  split at h
  · next x found =>
    exact isFinite_signed (isFinite_of_scale (moderate_ofNat (significand_lt l)) found)
      (Except.ok.inj h)
  · cases h

/-- **A literal is never read as an infinite or undefined number.** -/
theorem isFinite_of_number {l : Literal} {y : Float} (h : l.number = .ok (.double y)) :
    y.isFinite = true := by
  rw [number_eq] at h
  split at h
  · split at h
    · exact isFinite_of_scaled h
    · split at h
      · cases h
      · exact isFinite_signed (x := 0) (by decide) (Except.ok.inj h)
  · split at h
    · split at h
      · cases h
      · exact isFinite_of_scaled h
    · exact isFinite_of_scaled h

theorem scaled_of_neg (l : Literal) {power : Int} (h : power < 0) :
    ∃ n, l.scaled power = .ok n := by
  obtain ⟨x, found⟩ := Option.isSome_iff_exists.mp
    (scale_isSome_of_neg (power.natAbs + 1) (moderate_ofNat (significand_lt l)) h)
  exact ⟨_, by rw [scaled, found]⟩

theorem scaled_of_nonneg (l : Literal) {power : Int} (h : 0 ≤ power)
    (le : (l.significand.1 : ℚ) * 10 ^ power.toNat ≤ inReach) : ∃ n, l.scaled power = .ok n := by
  obtain ⟨x, found⟩ := Option.isSome_iff_exists.mp
    (scale_isSome_of_nonneg power.natAbs (significand_lt l) le)
  rw [Int.toNat_of_nonneg h] at found
  exact ⟨_, by rw [scaled, found]⟩

theorem significand_le_inReach (l : Literal) : (l.significand.1 : ℚ) ≤ inReach := by
  have lt : (l.significand.1 : ℚ) ≤ 18446744073709551616 := by
    exact_mod_cast (significand_lt l).le
  have unit : (2 : ℚ) ^ 12 ≤ 2 ^ 971 := pow_le_pow_right₀ one_le_two (by decide)
  unfold inReach
  generalize (2 : ℚ) ^ 971 = unitInTheLastPlace at unit ⊢
  norm_num at unit ⊢
  linarith

/-- Where nothing is left of the integer part, the power comes from the fraction. -/
theorem significand_of_short {l : Literal} (digits : ∀ d ∈ l.whole, d < 10)
    (short : l.whole.length ≤ 19) : l.significand =
      match l.fraction with
      | none => (l.whole.foldl shiftIn 0, 0)
      | some ds =>
        let (n, dropped) := accumulate wordLimit64 (l.whole.foldl shiftIn 0) ds
        (n, -((ds.length - dropped.length : Nat))) := by
  unfold significand
  rw [accumulate_short digits short]
  cases l.fraction with
  | none => rfl
  | some ds => simp

/-- **A literal with a short integer part and no positive exponent has a number.** -/
theorem number_of_short {l : Literal} (digits : ∀ d ∈ l.whole, d < 10)
    (short : l.whole.length ≤ 19) (exponent : ∀ e ∈ l.exponent, e.1 = true) :
    ∃ n, l.number = .ok n := by
  have power : l.significand.2 ≤ 0 := by
    rw [significand_of_short digits short]
    cases l.fraction with
    | none => exact Int.le_refl 0
    | some ds => dsimp only; omega
  have scaled_nonpos {power : Int} (h : power ≤ 0) : ∃ n, l.scaled power = .ok n := by
    rcases Int.lt_or_eq_of_le h with negative | rfl
    · exact scaled_of_neg l negative
    · refine scaled_of_nonneg l (Int.le_refl 0) ?_
      rw [Int.toNat_zero, pow_zero, mul_one]
      exact significand_le_inReach l
  rw [number_eq]
  split
  · next negative ds same =>
    obtain rfl : negative = true := exponent _ same
    split
    · exact scaled_nonpos (by simp only [if_true]; omega)
    · rw [if_neg (by simp)]
      exact ⟨_, rfl⟩
  · split
    · split
      · exact ⟨_, rfl⟩
      · exact scaled_nonpos (Int.le_refl 0)
    · exact scaled_nonpos power

end Literal

end CapabilityPipeline.Json
