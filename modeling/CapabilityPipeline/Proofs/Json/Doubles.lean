import CapabilityPipeline.Json.Decimal
import CapabilityPipeline.Proofs.Json.Scaling

/-!
# Doubles

The text of a double is the shortest decimal that rounds to it. The number that is read from the
text need not be that double, but there is one.

Results:

* `Decimal.text_eq`, `Decimal.valid_numeral`: a decimal is written as a numeral.
* `Numeral.readNumber_numeral`: a numeral is read as the number of its literal.
* `readNumber_doubleText`: the text of a finite double is read as some number. The shortest decimal
  can lie up to half a unit above the double, so the bound on what can be scaled leaves out the
  sixteen largest doubles, and those are evaluated (`isOk_largest`).
-/

namespace CapabilityPipeline.Json

open Text (Symbol)

/-! ## Shortest decimals -/

/-- The value of a decimal. -/
def Decimal.value (d : Decimal) : ℚ := d.digits * 10 ^ d.exponent

namespace Binary

/-- A decimal that is found is at most half a unit larger than the binary fraction. -/
theorem value_of_atPlace {b : Binary} {place : Int} {d : Decimal}
    (h : b.atPlace place = some d) : d.value ≤ (b.mantissa + 1 / 2) * 2 ^ b.exponent := by
  have inside (n : Nat) (le : n * (2 ^ (-(b.exponent - 2)).toNat * 10 ^ place.toNat) ≤
      (4 * b.mantissa + 2) * 2 ^ (b.exponent - 2).toNat * 10 ^ (-place).toNat) :
      (⟨n, place⟩ : Decimal).value ≤ (b.mantissa + 1 / 2) * 2 ^ b.exponent := by
    have cast : (n : ℚ) * (2 ^ (-(b.exponent - 2)).toNat * 10 ^ place.toNat) ≤
        (4 * b.mantissa + 2) * 2 ^ (b.exponent - 2).toNat * 10 ^ (-place).toNat := by
      exact_mod_cast le
    rw [← zpow_mul_toNat (b := 10) (by norm_num) place,
      ← zpow_mul_toNat two_ne_zero (b.exponent - 2)] at cast
    have quarter : (2 : ℚ) ^ b.exponent = 4 * 2 ^ (b.exponent - 2) := by
      rw [zpow_sub₀ two_ne_zero]
      norm_num
      ring
    rw [Decimal.value, quarter]
    refine le_of_mul_le_mul_right ?_
      (show (0 : ℚ) < 2 ^ (-(b.exponent - 2)).toNat * 10 ^ (-place).toNat by positivity)
    linarith
  have within {parity : Prop} [Decidable parity] {low high n unit : Nat}
      (h : (if parity then decide (low ≤ n * unit) && decide (n * unit ≤ high)
        else decide (low < n * unit) && decide (n * unit < high)) = true) : n * unit ≤ high := by
    split at h
    · exact of_decide_eq_true (Bool.and_eq_true_iff.mp h).2
    · exact (of_decide_eq_true (Bool.and_eq_true_iff.mp h).2).le
  simp only [atPlace, scaled] at h
  split at h
  · next below above =>
    cases h
    exact iteInduction (motive := fun n => Decimal.value ⟨n, place⟩ ≤ _)
      (fun _ => inside _ (within below)) fun _ => inside _ (within above)
  · next below _ =>
    cases h
    exact inside _ (within below)
  · next _ above =>
    cases h
    exact inside _ (within above)
  · cases h

theorem value_firstOf (b : Binary) (places : List Int) :
    (b.firstOf places).value ≤ (b.mantissa + 1 / 2) * 2 ^ b.exponent := by
  induction places with
  | nil =>
    rw [firstOf, Decimal.value, Nat.cast_zero, zero_mul]
    positivity
  | cons place finer ih =>
    rw [firstOf]
    cases found : b.atPlace place with
    | none => exact ih
    | some d => exact value_of_atPlace found

/-- **The shortest decimal is at most half a unit larger than the binary fraction.** -/
theorem value_shortest (b : Binary) :
    b.shortest.value ≤ (b.mantissa + 1 / 2) * 2 ^ b.exponent := by
  unfold shortest
  split
  · rw [Decimal.value, Nat.cast_zero, zero_mul]
    positivity
  · exact value_firstOf b _

end Binary

namespace Decimal

/-- Dropping zeros keeps the number of a decimal. -/
theorem value_normalize (d : Decimal) : d.normalize.value ≤ d.value := by
  unfold normalize
  dsimp only
  split
  · rw [value, value, Nat.cast_zero, zero_mul]
    positivity
  · generalize ((Nat.toDigits 10 d.digits).reverse.takeWhile (· == '0')).length = zeros
    have whole : ((d.digits / Nat.pow 10 zeros : ℕ) : ℚ) * 10 ^ zeros ≤ d.digits := by
      exact_mod_cast Nat.div_mul_le_self d.digits (10 ^ zeros)
    have := mul_le_mul_of_nonneg_right whole (show (0 : ℚ) ≤ 10 ^ d.exponent by positivity)
    rw [value, value, zpow_add₀ (by norm_num), zpow_natCast]
    linarith

/-- The first digit of a number is none of its trailing zeros. -/
theorem length_zeros_lt {n : Nat} (h : n ≠ 0) :
    ((Nat.toDigits 10 n).reverse.takeWhile (· == '0')).length < (Nat.toDigits 10 n).length := by
  rw [← @List.length_reverse _ (Nat.toDigits 10 n)]
  refine Nat.lt_of_le_of_ne (List.takeWhile_prefix _).length_le fun all => ?_
  have same := (List.takeWhile_prefix (· == '0')).eq_of_length all
  obtain ⟨d, ds, head, nonzero⟩ := decimalDigits_head (Nat.pos_of_ne_zero h)
  unfold decimalDigits at head
  obtain ⟨c, cs, digits, rfl, -⟩ := List.map_eq_cons_iff.mp head
  have zero : (c == '0') = true := by
    refine List.all_eq_true.mp (List.all_takeWhile (p := (· == '0'))
      (l := (Nat.toDigits 10 n).reverse)) c ?_
    rw [same, digits]
    simp
  rw [beq_iff_eq] at zero
  exact nonzero (zero ▸ rfl)

theorem normalize_pos {d : Decimal} (h : d.digits ≠ 0) : d.normalize.digits ≠ 0 := by
  unfold normalize
  dsimp only
  rw [if_neg h]
  have fewer := length_zeros_lt h
  generalize ((Nat.toDigits 10 d.digits).reverse.takeWhile (· == '0')).length = zeros at fewer
  have enough : 10 ^ zeros ≤ d.digits := by
    rcases Nat.eq_zero_or_pos zeros with rfl | pos
    · exact Nat.pos_of_ne_zero h
    · by_contra not
      exact absurd ((Nat.length_toDigits_le_iff (by decide) pos).mpr (Nat.not_le.mp not)) (by omega)
  exact (Nat.div_pos enough (Nat.pow_pos (by decide))).ne'

end Decimal

/-! ## Numerals -/

/-- The digits that characters stand for. -/
def digitsOf (cs : List Char) : List Nat := cs.map fun c => c.toNat - 48

/-- The characters of a literal. An empty fraction stands for none, and an exponent is a flag
for its sign and a number. -/
structure Numeral where
  whole : List Char
  fraction : List Char
  exponent : Option (Bool × Nat)

namespace Numeral

/-- The text after the integer part. -/
def fractionChars (s : Numeral) : List Char :=
  if s.fraction.isEmpty then [] else '.' :: s.fraction

/-- The text after the fraction. -/
def exponentChars (s : Numeral) : List Char :=
  match s.exponent with
  | none => []
  | some (negative, n) => 'e' :: (if negative then '-' else '+') :: Nat.toDigits 10 n

/-- The text without a sign. -/
def chars (s : Numeral) : List Char := s.whole ++ s.fractionChars ++ s.exponentChars

/-- The literal that is read. -/
def literal (negative : Bool) (s : Numeral) : Literal where
  negative := negative
  whole := digitsOf s.whole
  fraction := if s.fraction.isEmpty then none else some (digitsOf s.fraction)
  exponent := s.exponent.map fun (negative, n) => (negative, decimalDigits n)

/-- The characters are digits, and a zero stands first only when it stands alone. -/
structure Valid (s : Numeral) : Prop where
  whole : ∀ c ∈ s.whole, c.isDigit = true
  fraction : ∀ c ∈ s.fraction, c.isDigit = true
  first : ∃ c rest, s.whole = c :: rest ∧ (c = '0' → rest = [])

variable {s : Numeral}

theorem endsDigits_exponentChars (s : Numeral) {rest : List Symbol} (ends : EndsDigits rest) :
    EndsDigits (symbols s.exponentChars ++ rest) := by
  unfold exponentChars
  split
  · exact ends
  · rintro _ _ ⟨⟩
    rfl

theorem endsDigits_fractionChars (s : Numeral) {rest : List Symbol} (ends : EndsDigits rest) :
    EndsDigits (symbols s.fractionChars ++ rest) := by
  unfold fractionChars
  split
  · exact ends
  · rintro _ _ ⟨⟩
    rfl

theorem readWhole_numeral (valid : s.Valid) (skipping : Bool) {rest : List Symbol}
    (ends : EndsDigits rest) :
    readWhole skipping (symbols s.whole ++ rest) = .ok (digitsOf s.whole, rest) := by
  obtain ⟨c, cs, whole, alone⟩ := valid.first
  have digit := valid.whole c (whole ▸ List.mem_cons_self ..)
  have zero (h : c.toNat - 48 = 0) : cs.map (fun c => c.toNat - 48) = [] := by
    have single : cs = [] := by
      refine alone (Char.toNat_inj.mp ?_)
      simp only [Char.isDigit, Bool.and_eq_true, decide_eq_true_eq,
        UInt32.le_iff_toNat_le] at digit
      have low : 48 ≤ c.toNat := digit.1
      show c.toNat = 48
      omega
    rw [single, List.map_nil]
  unfold readWhole
  rw [readDigits_append ends valid.whole, whole]
  simp only [digitsOf, List.map_cons]
  generalize c.toNat - 48 = d at zero
  generalize cs.map (fun c => c.toNat - 48) = ds at zero
  cases d with
  | zero =>
    rw [zero rfl]
    rfl
  | succ d => rfl

theorem readExponent_numeral (s : Numeral) (skipping : Bool) {rest : List Symbol}
    (ends : EndsNumber rest) : readExponent skipping (symbols s.exponentChars ++ rest) =
      .ok (s.exponent.map fun (negative, n) => (negative, decimalDigits n), rest) := by
  unfold exponentChars
  split
  · next none =>
    rw [none]
    exact readExponent_none skipping ends
  · next negative n some =>
    rw [some]
    obtain ⟨d, ds, digits⟩ : ∃ d ds, decimalDigits n = d :: ds :=
      List.exists_cons_of_ne_nil fun none => Nat.toDigits_ne_nil (List.map_eq_nil_iff.mp none)
    have read := readDigits_toDigits ends n
    rw [digits] at read
    cases negative <;>
      simp [readExponent, symbols, read, digits]

theorem readFraction_numeral (valid : s.Valid) (skipping : Bool) {rest : List Symbol}
    (ends : EndsDigits rest) (noPoint : ∀ tail, rest ≠ .char '.' :: tail) :
    readFraction skipping (symbols s.fractionChars ++ rest) =
      .ok (if s.fraction.isEmpty then none else some (digitsOf s.fraction), rest) := by
  unfold fractionChars
  split
  · next none =>
    unfold readFraction
    split
    · next tail same => exact absurd same (noPoint tail)
    · rfl
  · next some =>
    obtain ⟨c, cs, fraction⟩ := List.exists_cons_of_ne_nil (by simpa using some)
    have read := readDigits_append ends valid.fraction
    rw [fraction] at read ⊢
    simp only [symbols, List.map_cons, List.cons_append] at read ⊢
    simp [readFraction, read, digitsOf]

/-- **A spelled literal is read up to what ends it.** -/
theorem readNumber_numeral (valid : s.Valid) (negative skipping : Bool) {n : Number}
    (h : (s.literal negative).number = .ok n) {rest : List Symbol} (ends : EndsNumber rest) :
    readNumber skipping (symbols (if negative then '-' :: s.chars else s.chars) ++ rest) =
      .ok (some n, rest) := by
  have noPoint (tail : List Symbol) :
      symbols s.exponentChars ++ rest ≠ .char '.' :: tail := by
    unfold exponentChars
    split
    · exact fun same => (ends _ _ same).2.1 rfl
    · intro same
      cases same
  have exponentEnds := s.endsDigits_exponentChars ends.digits
  have whole := readWhole_numeral valid skipping (s.endsDigits_fractionChars exponentEnds)
  have fraction := readFraction_numeral valid skipping exponentEnds noPoint
  have exponent := s.readExponent_numeral skipping ends
  have shape : symbols s.chars ++ rest =
      symbols s.whole ++ (symbols s.fractionChars ++ (symbols s.exponentChars ++ rest)) := by
    simp [chars]
  have nonnegative (tail : List Symbol) : symbols s.chars ++ rest ≠ .char '-' :: tail := by
    obtain ⟨c, cs, same, -⟩ := valid.first
    have digit := valid.whole c (same ▸ List.mem_cons_self ..)
    rw [shape, same]
    intro minus
    cases minus
    cases digit
  have number : (⟨negative, digitsOf s.whole, if s.fraction.isEmpty then none
      else some (digitsOf s.fraction), s.exponent.map fun (negative, n) =>
        (negative, decimalDigits n)⟩ : Literal).number = .ok n := h
  unfold readNumber
  cases negative with
  | true =>
    simp only [if_true, List.map_cons, List.cons_append]
    rw [shape, whole]
    simp only [bind, Except.bind, fraction, exponent, number]
  | false =>
    rw [if_neg Bool.false_ne_true]
    split
    next same =>
      split at same
      · next tail minus => exact absurd minus (nonnegative tail)
      · cases same
        rw [shape, whole]
        simp only [bind, Except.bind, fraction, exponent, number]

end Numeral

/-- A character of numerals. -/
def continuesNumeral (c : Char) : Bool :=
  c.isDigit || c = '.' || c = 'e' || c = '+' || c = '-'

theorem Numeral.continuesNumeral_chars {s : Numeral} (valid : s.Valid) :
    ∀ c ∈ s.chars, continuesNumeral c = true := by
  have digit {c : Char} (h : c.isDigit = true) : continuesNumeral c = true := by
    rw [continuesNumeral, h]
    rfl
  have fraction : ∀ c ∈ s.fractionChars, continuesNumeral c = true := by
    unfold fractionChars
    split
    · exact fun _ none => by cases none
    · exact List.forall_mem_cons.mpr ⟨rfl, fun c hc => digit (valid.fraction c hc)⟩
  have exponent : ∀ c ∈ s.exponentChars, continuesNumeral c = true := by
    unfold exponentChars
    split
    · exact fun _ none => by cases none
    · next negative n _ =>
      refine List.forall_mem_cons.mpr ⟨rfl, List.forall_mem_cons.mpr ⟨?_, fun c hc => ?_⟩⟩
      · cases negative <;> rfl
      · exact digit (Nat.isDigit_of_mem_toDigits (by decide) (by decide) hc)
  intro c hc
  rcases List.mem_append.mp hc with front | back
  · rcases List.mem_append.mp front with whole | point
    · exact digit (valid.whole c whole)
    · exact fraction c point
  · exact exponent c back

/-! ## The text of a decimal -/

namespace Decimal

/-- The digits of a decimal without trailing zeros. -/
def digitChars (d : Decimal) : List Char := Nat.toDigits 10 d.normalize.digits

/-- The number of digits in front of the point. -/
def point (d : Decimal) : Int := d.digitChars.length + d.normalize.exponent

/-- The literal that a decimal is written as. -/
def numeral (d : Decimal) : Numeral :=
  if d.digits = 0 then ⟨['0'], ['0'], none⟩
  else if 0 ≤ d.normalize.exponent ∧ d.point ≤ 16 then
    ⟨d.digitChars ++ List.replicate d.normalize.exponent.toNat '0', ['0'], none⟩
  else if 0 < d.point ∧ d.point ≤ 16 then
    ⟨d.digitChars.take d.point.toNat, d.digitChars.drop d.point.toNat, none⟩
  else if -5 < d.point ∧ d.point ≤ 0 then
    ⟨['0'], List.replicate (-d.point).toNat '0' ++ d.digitChars, none⟩
  else ⟨d.digitChars.take 1, d.digitChars.drop 1, some (d.point - 1 < 0, (d.point - 1).natAbs)⟩

theorem digitChars_cons {d : Decimal} (h : d.digits ≠ 0) :
    ∃ c cs, d.digitChars = c :: cs ∧ c ≠ '0' := by
  obtain ⟨e, es, head, nonzero⟩ := decimalDigits_head (Nat.pos_of_ne_zero (normalize_pos h))
  obtain ⟨c, cs, digits, rfl, -⟩ := List.map_eq_cons_iff.mp head
  refine ⟨c, cs, digits, ?_⟩
  rintro rfl
  exact nonzero rfl

theorem isDigit_digitChars (d : Decimal) : ∀ c ∈ d.digitChars, c.isDigit = true :=
  fun _ hc => Nat.isDigit_of_mem_toDigits (by decide) (by decide) hc

theorem text_eq (d : Decimal) : d.text = d.numeral.chars := by
  have shape : d.text =
      if d.digits = 0 then ['0', '.', '0']
      else if 0 ≤ d.normalize.exponent ∧ d.point ≤ 16 then
        d.digitChars ++ List.replicate d.normalize.exponent.toNat '0' ++ ['.', '0']
      else if 0 < d.point ∧ d.point ≤ 16 then
        d.digitChars.take d.point.toNat ++ ['.'] ++ d.digitChars.drop d.point.toNat
      else if -5 < d.point ∧ d.point ≤ 0 then
        ['0', '.'] ++ List.replicate (-d.point).toNat '0' ++ d.digitChars
      else
        d.digitChars.take 1 ++
          (if d.digitChars.length = 1 then [] else '.' :: d.digitChars.drop 1) ++
          ['e', if d.point - 1 < 0 then '-' else '+'] ++ Nat.toDigits 10 (d.point - 1).natAbs := rfl
  rw [shape, numeral]
  split
  · rfl
  next nonzero =>
  obtain ⟨c, cs, digits, -⟩ := digitChars_cons nonzero
  split
  · simp [Numeral.chars, Numeral.fractionChars, Numeral.exponentChars]
  next notWhole =>
  split
  · next inside =>
    have some : (d.digitChars.drop d.point.toNat).isEmpty = false := by
      have shorter : d.point.toNat < d.digitChars.length := by
        rw [point] at *
        omega
      simpa using shorter
    simp [Numeral.chars, Numeral.fractionChars, Numeral.exponentChars, some]
  split
  · simp [Numeral.chars, Numeral.fractionChars, Numeral.exponentChars, digits]
  · rw [digits]
    cases cs <;> simp [Numeral.chars, Numeral.fractionChars, Numeral.exponentChars]

theorem valid_numeral (d : Decimal) : d.numeral.Valid := by
  have zero : ∀ c ∈ ['0'], c.isDigit = true := List.forall_mem_singleton.mpr rfl
  have zeros (n : Nat) : ∀ c ∈ List.replicate n '0', c.isDigit = true := fun c hc =>
    (List.eq_of_mem_replicate hc) ▸ rfl
  have all := d.isDigit_digitChars
  have alone : ∃ c rest, ['0'] = c :: rest ∧ (c = '0' → rest = []) := ⟨'0', [], rfl, fun _ => rfl⟩
  unfold numeral
  split
  · exact ⟨zero, zero, alone⟩
  next nonzero =>
  obtain ⟨c, cs, digits, positive⟩ := digitChars_cons nonzero
  split
  · refine ⟨fun e he => ?_, zero, c, _, by rw [digits]; rfl, fun h => absurd h positive⟩
    rcases List.mem_append.mp he with digit | padding
    · exact all e digit
    · exact zeros _ e padding
  split
  · next inside =>
    refine ⟨fun e he => all e (List.mem_of_mem_take he),
      fun e he => all e (List.mem_of_mem_drop he), c, cs.take (d.point.toNat - 1), ?_,
      fun h => absurd h positive⟩
    rw [digits, List.take_cons (by omega)]
  split
  · refine ⟨zero, fun e he => ?_, alone⟩
    rcases List.mem_append.mp he with padding | digit
    · exact zeros _ e padding
    · exact all e digit
  · refine ⟨fun e he => all e (List.mem_of_mem_take he),
      fun e he => all e (List.mem_of_mem_drop he), c, [], ?_, fun h => absurd h positive⟩
    rw [digits]
    rfl

theorem digitsOf_lt {cs : List Char} (h : ∀ c ∈ cs, c.isDigit = true) :
    ∀ d ∈ digitsOf cs, d < 10 := by
  intro d hd
  obtain ⟨c, hc, rfl⟩ := List.mem_map.mp hd
  have digit := h c hc
  simp only [Char.isDigit, Bool.and_eq_true, decide_eq_true_eq, UInt32.le_iff_toNat_le] at digit
  have high : c.toNat ≤ 57 := digit.2
  omega

/-- The digits behind the first one that are looked at make up at most the number. -/
theorem significand_scientific {d : Decimal} {c : Char} {cs : List Char}
    (digits : d.digitChars = c :: cs) (negative : Bool) (exponent : Option (Bool × List Nat)) :
    ∃ left ≤ cs.length,
      (⟨negative, digitsOf [c], if cs.isEmpty then none else some (digitsOf cs), exponent⟩ :
        Literal).significand.2 = -((cs.length - left : ℕ) : Int) ∧
      (⟨negative, digitsOf [c], if cs.isEmpty then none else some (digitsOf cs), exponent⟩ :
        Literal).significand.1 * 10 ^ left ≤ d.normalize.digits := by
  have number : (digitsOf cs).foldl Literal.shiftIn (c.toNat - 48) = d.normalize.digits := by
    have all := foldl_decimalDigits d.normalize.digits
    have same : decimalDigits d.normalize.digits = (c.toNat - 48) :: digitsOf cs := by
      have whole : decimalDigits d.normalize.digits = digitsOf d.digitChars := rfl
      rw [whole, digits]
      rfl
    rw [same, List.foldl_cons, Nat.zero_mul, Nat.zero_add] at all
    exact all
  have digit : ∀ e ∈ digitsOf [c], e < 10 := digitsOf_lt fun e he =>
    d.isDigit_digitChars e (digits ▸ List.mem_cons.mpr (.inl (List.mem_singleton.mp he)))
  have first : (digitsOf [c]).foldl Literal.shiftIn 0 = c.toNat - 48 := by
    simp [digitsOf, Literal.shiftIn]
  rw [Literal.significand_of_short digit (by simp [digitsOf])]
  cases cs with
  | nil => exact ⟨0, Nat.le_refl 0, rfl, by rw [← number]; simp [digitsOf, Literal.shiftIn]⟩
  | cons e es =>
    simp only [List.isEmpty_cons, Bool.false_eq_true, if_false, first]
    refine ⟨(Literal.accumulate wordLimit64 (c.toNat - 48) (digitsOf (e :: es))).2.length,
      ?_, ?_, ?_⟩
    · refine Nat.le_trans (Literal.length_accumulate_le ..) ?_
      rw [digitsOf, List.length_map]
    · rw [digitsOf, List.length_map]
    · rw [← number, ← Literal.foldl_accumulate wordLimit64]
      exact Literal.mul_pow_le_foldl ..

theorem length_whole_numeral (d : Decimal) : d.numeral.whole.length ≤ 16 := by
  unfold numeral
  split
  · decide
  split
  · rw [List.length_append, List.length_replicate]
    rw [point] at *
    omega
  split
  · rw [List.length_take]
    omega
  split
  · exact Nat.le_of_ble_eq_true rfl
  · rw [List.length_take]
    omega

/-- Only large decimals have a positive exponent. -/
theorem numeral_of_exponent {d : Decimal} {n : Nat} (h : d.numeral.exponent = some (false, n)) :
    d.numeral = ⟨d.digitChars.take 1, d.digitChars.drop 1, some (false, n)⟩ ∧ d.digits ≠ 0 ∧
      d.point - 1 = n := by
  unfold numeral at h ⊢
  split at h
  · cases h
  next nonzero =>
  split at h
  · cases h
  next notWhole =>
  split at h
  · cases h
  next notInside =>
  split at h
  · cases h
  next notBelow =>
  injection h with h
  injection h with sign size
  rw [decide_eq_false_iff_not] at sign
  refine ⟨?_, nonzero, by omega⟩
  rw [if_neg nonzero, if_neg notWhole, if_neg notInside, if_neg notBelow, size,
    decide_eq_false sign]

/-- As many digits as a number has make it at least a power of ten. -/
theorem pow_le_digits {d : Decimal} (h : d.digits ≠ 0) {c : Char} {cs : List Char}
    (digits : d.digitChars = c :: cs) : 10 ^ cs.length ≤ d.normalize.digits := by
  have length : (Nat.toDigits 10 d.normalize.digits).length = cs.length + 1 := by
    rw [← List.length_cons (a := c), ← digits]
    rfl
  rcases Nat.eq_zero_or_pos cs.length with zero | pos
  · rw [zero]
    exact Nat.pos_of_ne_zero (normalize_pos h)
  · by_contra not
    have := (Nat.length_toDigits_le_iff (by decide) pos).mpr (Nat.not_le.mp not)
    omega

/-- A scientific literal in reach has a number. -/
theorem exists_number_of_exponent {d : Decimal} (h : d.value ≤ Literal.inReach)
    (negative : Bool) {n : Nat} (scientific : d.numeral.exponent = some (false, n)) :
    ∃ x, (d.numeral.literal negative).number = .ok x := by
  obtain ⟨shape, nonzero, exponent⟩ := numeral_of_exponent scientific
  obtain ⟨c, cs, digits, positive⟩ := digitChars_cons nonzero
  obtain ⟨left, le, power, part⟩ :=
    significand_scientific digits negative (some (false, decimalDigits n))
  have literal : d.numeral.literal negative = ⟨negative, digitsOf [c],
      if cs.isEmpty then none else some (digitsOf cs), some (false, decimalDigits n)⟩ := by
    rw [shape, digits]
    rfl
  have exponent' : (n : Int) = cs.length + d.normalize.exponent := by
    rw [point, digits, List.length_cons] at exponent
    push_cast at exponent
    omega
  have value := (value_normalize d).trans h
  have small : n < 309 := by
    have leading : (10 : ℚ) ^ (n : Int) ≤ d.normalize.value := by
      rw [exponent', zpow_add₀ (by norm_num), zpow_natCast, Decimal.value]
      exact mul_le_mul_of_nonneg_right (by exact_mod_cast pow_le_digits nonzero digits)
        (by positivity)
    rw [zpow_natCast] at leading
    exact (pow_lt_pow_iff_right₀ (by norm_num : (1 : ℚ) < 10)).mp
      (lt_of_le_of_lt (leading.trans value) Literal.inReach_lt)
  have shift : Literal.accumulate Literal.maxShift 0 (decimalDigits n) = (n, []) :=
    accumulate_decimalDigits (Nat.lt_trans small (by decide))
  rw [literal]
  generalize same : (⟨negative, digitsOf [c], if cs.isEmpty then none else some (digitsOf cs),
    some (false, decimalDigits n)⟩ : Literal) = l at power part ⊢
  have exponent'' : l.exponent = some (false, decimalDigits n) := by rw [← same]
  rw [Literal.number_eq, exponent'']
  simp only [shift, List.isEmpty_nil, if_true, Bool.false_eq_true, if_false]
  have total : l.significand.2 + n = d.normalize.exponent + left := by
    rw [power, exponent']
    omega
  rw [total]
  rcases Int.lt_or_le (d.normalize.exponent + left) 0 with negative | nonneg
  · exact Literal.scaled_of_neg l negative
  · refine Literal.scaled_of_nonneg l nonneg (le_trans ?_ value)
    rw [← zpow_natCast, Int.toNat_of_nonneg nonneg, Decimal.value, add_comm,
      zpow_add₀ (by norm_num), zpow_natCast, ← mul_assoc]
    exact mul_le_mul_of_nonneg_right (by exact_mod_cast part) (by positivity)

/-- **The text of a decimal in reach is read as some number.** -/
theorem exists_number {d : Decimal} (h : d.value ≤ Literal.inReach) (negative : Bool) :
    ∃ n, (d.numeral.literal negative).number = .ok n := by
  have valid := d.valid_numeral
  by_cases scientific : ∃ n, d.numeral.exponent = some (false, n)
  · obtain ⟨n, scientific⟩ := scientific
    exact exists_number_of_exponent h negative scientific
  · refine Literal.number_of_short (digitsOf_lt valid.whole) ?_ fun e he => ?_
    · show (digitsOf d.numeral.whole).length ≤ 19
      have := d.length_whole_numeral
      rw [digitsOf, List.length_map]
      omega
    · obtain ⟨⟨minus, n⟩, same, rfl⟩ := Option.map_eq_some_iff.mp he
      cases minus with
      | true => rfl
      | false => exact absurd ⟨n, same⟩ scientific

end Decimal

/-! ## Doubles -/

/-- The sixteen largest doubles are out of reach, but their texts have numbers. -/
theorem isOk_largest : ∀ i < 16, ∀ negative : Bool,
    ((Binary.shortest ⟨2 ^ 53 - 1 - i, 971, false⟩).numeral.literal negative).number.isOk =
      true := by
  decide +kernel

/-- The magnitude of a finite double has at most 53 bits at an exponent in range. -/
theorem ofBits_of_isFinite {x : Float} (h : x.isFinite = true) :
    (Binary.ofBits x.toBits).mantissa < 2 ^ 53 ∧ (Binary.ofBits x.toBits).exponent ≤ 971 ∧
      (2 ^ 52 < (Binary.ofBits x.toBits).mantissa →
        (Binary.ofBits x.toBits).atBoundary = false) := by
  have biased : x.toBits.toNat / Binary.hiddenBit % 2048 < 2047 := exponentBits_of_isFinite h
  have fraction : x.toBits.toNat % Binary.hiddenBit < 2 ^ 52 := Nat.mod_lt _ (by decide)
  have hidden : Binary.hiddenBit = 2 ^ 52 := rfl
  unfold Binary.ofBits
  simp only [hidden] at *
  split
  · dsimp only
    exact ⟨by omega, by decide, fun _ => rfl⟩
  · simp only [Int.ofNat_eq_natCast]
    refine ⟨by omega, by omega, fun large => ?_⟩
    rw [Bool.and_eq_false_iff]
    exact .inl (decide_eq_false (by omega))

/-- **The shortest decimal of a finite double is read as some number.** -/
theorem exists_number_shortest {x : Float} (h : x.isFinite = true) (negative : Bool) :
    ∃ n, ((Binary.ofBits x.toBits).shortest.numeral.literal negative).number = .ok n := by
  obtain ⟨bits, inRange, boundary⟩ := ofBits_of_isFinite h
  generalize Binary.ofBits x.toBits = b at *
  obtain ⟨m, e, atBoundary⟩ := b
  dsimp only at bits inRange boundary
  by_cases largest : e = 971 ∧ 2 ^ 53 - 16 ≤ m
  · obtain ⟨rfl, least⟩ := largest
    have evaluated := isOk_largest (2 ^ 53 - 1 - m) (by omega) negative
    rw [boundary (by omega)]
    rw [show 2 ^ 53 - 1 - (2 ^ 53 - 1 - m) = m by omega] at evaluated
    cases found : ((Binary.shortest ⟨m, 971, false⟩).numeral.literal negative).number with
    | ok n => exact ⟨n, rfl⟩
    | error _ => rw [found] at evaluated; cases evaluated
  · refine Decimal.exists_number ((Binary.value_shortest _).trans ?_) negative
    have fits : ((m : ℚ) + 1 / 2) * 2 ^ e ≤ Literal.inReach := by
      have top : (2 : ℚ) ^ (971 : Int) = 2 ^ 971 := zpow_natCast 2 971
      have unit : (0 : ℚ) < 2 ^ 971 := by positivity
      unfold Literal.inReach
      rcases Int.lt_or_eq_of_le inRange with below | rfl
      · have mantissa : (m : ℚ) + 1 ≤ 9007199254740992 := by exact_mod_cast bits
        have scale : (2 : ℚ) ^ e ≤ 2 ^ (970 : Int) := zpow_le_zpow_right₀ one_le_two (by omega)
        have half : (2 : ℚ) ^ 971 = 2 ^ (970 : Int) * 2 :=
          top.symm.trans (zpow_add_one₀ two_ne_zero 970)
        have scaled := mul_le_mul_of_nonneg_left scale
          (add_nonneg m.cast_nonneg (by norm_num) : (0 : ℚ) ≤ (m : ℚ) + 1 / 2)
        refine scaled.trans ?_
        rw [half] at unit ⊢
        generalize (2 : ℚ) ^ (970 : Int) = u at unit ⊢
        norm_num
        nlinarith
      · have mantissa : (m : ℚ) + 17 ≤ 9007199254740992 := by
          exact_mod_cast (by omega : m + 17 ≤ 9007199254740992)
        rw [top]
        refine mul_le_mul_of_nonneg_right ?_ unit.le
        norm_num
        linarith
    exact fits

theorem doubleText_eq (x : Float) : ∃ sign, (sign = [] ∨ sign = ['-']) ∧
    doubleText x = sign ++ (Binary.ofBits x.toBits).shortest.numeral.chars := by
  unfold doubleText
  rw [← Decimal.text_eq]
  dsimp only
  split
  · exact ⟨['-'], .inr rfl, rfl⟩
  · exact ⟨[], .inl rfl, rfl⟩

theorem continuesNumeral_doubleText (x : Float) :
    ∀ c ∈ doubleText x, continuesNumeral c = true := by
  obtain ⟨sign, form, same⟩ := doubleText_eq x
  intro c hc
  rw [same] at hc
  rcases List.mem_append.mp hc with minus | numeral
  · rcases form with rfl | rfl
    · cases minus
    · rw [List.mem_singleton.mp minus]
      rfl
  · exact Numeral.continuesNumeral_chars (Decimal.valid_numeral _) c numeral

/-- The text of a double begins with a sign or a digit. -/
theorem doubleText_head (x : Float) :
    ∃ c tail, doubleText x = c :: tail ∧ (c = '-' ∨ c.isDigit = true) := by
  obtain ⟨sign, rfl | rfl, same⟩ := doubleText_eq x
  · have valid := (Binary.ofBits x.toBits).shortest.valid_numeral
    obtain ⟨c, rest, whole, -⟩ := valid.first
    have digit := valid.whole c (whole ▸ List.mem_cons_self ..)
    rw [same, Numeral.chars, whole]
    exact ⟨c, _, rfl, .inr digit⟩
  · exact ⟨'-', _, same, .inl rfl⟩

/-- **The text of a finite double is read as some number**, up to what ends it. -/
theorem readNumber_doubleText {x : Float} (h : x.isFinite = true) :
    ∃ n, ∀ (skipping : Bool) (rest : List Symbol), EndsNumber rest →
      readNumber skipping (symbols (doubleText x) ++ rest) = .ok (some n, rest) := by
  obtain ⟨n, number⟩ :=
    exists_number_shortest h (decide (x.toBits.toNat / Binary.signBit = 1))
  refine ⟨n, fun skipping rest ends => ?_⟩
  have read := Numeral.readNumber_numeral (Decimal.valid_numeral _) _ skipping number ends
  rw [← Decimal.text_eq] at read
  unfold doubleText
  simpa using read

end CapabilityPipeline.Json
