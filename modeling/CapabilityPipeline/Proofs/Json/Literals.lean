import CapabilityPipeline.Json.Printer
import CapabilityPipeline.Json.Reader

/-!
# Printed strings and integers read back

Results:

* `readChars_stringBody`: the text of a string, read up to its closing quote, is the string.
* `readNumber_integerText`: the text of an integer, read up to a character that does not continue
  a number, is the integer.
-/

namespace CapabilityPipeline.Json

open Text (Symbol)

/-- Characters as symbols. -/
abbrev symbols (cs : List Char) : List Symbol := cs.map .char

/-! ## Strings -/

/-- A string as it stands between its quotes. -/
def stringBody (cs : List Char) : List Char := cs.flatMap escapedChar

theorem stringText_eq (text : String) : stringText text = '"' :: (stringBody text.toList ++ ['"']) :=
  rfl

theorem hexValue?_hexDigit : ∀ n, n < 16 → hexValue? (.char (hexDigit n)) = some n := by
  decide

theorem hexNumber?_control {n : Nat} (h : n < 0x20) :
    hexNumber? (.char '0') (.char '0') (.char (hexDigit (n / 16))) (.char (hexDigit (n % 16))) =
      some n := by
  have zero : hexValue? (.char '0') = some 0 := by decide
  unfold hexNumber?
  rw [zero, hexValue?_hexDigit (n / 16) (by omega), hexValue?_hexDigit (n % 16) (by omega)]
  simp only [Option.bind_eq_bind, Option.bind_some]
  congr 1
  omega

/-- Reading an escaped character, and then what follows it. -/
theorem readChars_escapedChar (skipping : Bool) (c : Char) {cs : List Char}
    {text rest : List Symbol} (h : readChars skipping text = .ok (some cs, rest)) :
    readChars skipping (symbols (escapedChar c) ++ text) = .ok (some (c :: cs), rest) := by
  have simple (letter : Char) (image : Char) (hl : letter ≠ 'u')
      (escape : escapedBy? letter = some image) :
      readChars skipping (symbols ['\\', letter] ++ text) = .ok (some (image :: cs), rest) := by
    simp only [symbols, List.map_cons, List.map_nil, List.cons_append, List.nil_append]
    rw [readChars, escape]
    · simp only [h]
      rfl
    all_goals simp [hl]
  unfold escapedChar
  split
  · next e => exact e ▸ simple '"' '"' (by decide) rfl
  split
  · next e => exact e ▸ simple '\\' '\\' (by decide) rfl
  split
  · next e => exact e ▸ simple 'n' '\n' (by decide) rfl
  split
  · next e => exact e ▸ simple 'r' '\r' (by decide) rfl
  split
  · next e => exact e ▸ simple 't' '\t' (by decide) rfl
  split
  · next e => exact e ▸ simple 'b' '\x08' (by decide) rfl
  split
  · next e => exact e ▸ simple 'f' '\x0c' (by decide) rfl
  split
  · next control =>
    have number := hexNumber?_control control
    have notLeading : isLeadingSurrogate c.toNat = false := by
      unfold isLeadingSurrogate
      simp
      omega
    have notTrailing : isTrailingSurrogate c.toNat = false := by
      unfold isTrailingSurrogate
      simp
      omega
    simp only [symbols, List.map_cons, List.map_nil, List.cons_append, List.nil_append]
    rw [readChars, number]
    simp only [notLeading, notTrailing, Bool.or_false, Bool.false_and, Bool.and_false,
      Bool.false_eq_true, if_false, h, Char.ofNat_toNat]
    rfl
  · next quote backslash _ _ _ _ _ control =>
    simp only [symbols, List.map_cons, List.map_nil, List.cons_append, List.nil_append]
    rw [readChars, if_neg control]
    · simp only [h]
      rfl
    all_goals simp [quote, backslash]

/-- The text of a string, read up to its closing quote, is the string. -/
theorem readChars_stringBody (skipping : Bool) (cs : List Char) (rest : List Symbol) :
    readChars skipping (symbols (stringBody cs) ++ .char '"' :: rest) = .ok (some cs, rest) := by
  induction cs with
  | nil => simp [stringBody, readChars]
  | cons c cs ih =>
    have := readChars_escapedChar skipping c ih
    rw [← List.append_assoc, ← List.map_append] at this
    exact this

/-! ## Integers -/

/-- What follows does not continue the number before it. -/
def EndsNumber (rest : List Symbol) : Prop :=
  ∀ s tail, rest = s :: tail →
    digitValue? s = none ∧ s ≠ .char '.' ∧ s ≠ .char 'e' ∧ s ≠ .char 'E'

/-- The decimal digits of a number, the most significant one first. -/
def decimalDigits (n : Nat) : List Nat :=
  (Nat.toDigits 10 n).map fun c => c.toNat - 48

theorem digitValue?_isDigit {c : Char} (h : c.isDigit = true) :
    digitValue? (.char c) = some (c.toNat - 48) := by
  unfold Char.isDigit at h
  simp only [Bool.and_eq_true, decide_eq_true_eq] at h
  unfold digitValue?
  exact if_pos h

/-- What follows is no digit. -/
def EndsDigits (rest : List Symbol) : Prop :=
  ∀ s tail, rest = s :: tail → digitValue? s = none

theorem EndsNumber.digits {rest : List Symbol} (h : EndsNumber rest) : EndsDigits rest :=
  fun s tail same => (h s tail same).1

theorem readDigits_append {rest : List Symbol} (ends : EndsDigits rest) {cs : List Char}
    (digits : ∀ c ∈ cs, c.isDigit = true) :
    readDigits (symbols cs ++ rest) = (cs.map fun c => c.toNat - 48, rest) := by
  induction cs with
  | nil =>
    cases rest with
    | nil => rfl
    | cons s tail =>
      simp only [symbols, List.map_nil, List.nil_append]
      rw [readDigits, ends s tail rfl]
  | cons c cs ih =>
    simp only [symbols, List.map_cons, List.cons_append]
    rw [readDigits, digitValue?_isDigit (digits c (List.mem_cons_self ..))]
    dsimp only
    rw [ih fun c hc => digits c (List.mem_cons_of_mem _ hc)]

theorem readDigits_toDigits {rest : List Symbol} (ends : EndsNumber rest) (n : Nat) :
    readDigits (symbols (Nat.toDigits 10 n) ++ rest) = (decimalDigits n, rest) :=
  readDigits_append ends.digits fun _ hc =>
    Nat.isDigit_of_mem_toDigits (by decide) (by decide) hc

theorem le_foldl_digits (ds : List Nat) (n : Nat) :
    n ≤ ds.foldl (fun n d => n * 10 + d) n := by
  induction ds generalizing n with
  | nil => exact Nat.le_refl n
  | cons d ds ih =>
    have := ih (n * 10 + d)
    rw [List.foldl_cons]
    omega

theorem accumulate_eq {limit : Nat} (ds : List Nat) (n : Nat)
    (h : ds.foldl (fun n d => n * 10 + d) n < limit) :
    Literal.accumulate limit n ds = (ds.foldl (fun n d => n * 10 + d) n, []) := by
  induction ds generalizing n with
  | nil => rfl
  | cons d ds ih =>
    rw [List.foldl_cons] at h
    have := le_foldl_digits ds (n * 10 + d)
    rw [Literal.accumulate, if_pos (by omega), ih _ h, List.foldl_cons]

theorem foldl_decimalDigits (n : Nat) :
    (decimalDigits n).foldl (fun n d => n * 10 + d) 0 = n := by
  have h := Nat.ofDigitChars_ten_toDigits (n := n)
  rw [Nat.ofDigitChars_eq_foldl] at h
  unfold decimalDigits
  rw [List.foldl_map]
  simpa [Nat.mul_comm] using h

theorem accumulate_decimalDigits {n limit : Nat} (h : n < limit) :
    Literal.accumulate limit 0 (decimalDigits n) = (n, []) := by
  have value := foldl_decimalDigits n
  rw [accumulate_eq _ _ (by rw [value]; exact h), value]

theorem decimalDigits_head {n : Nat} (h : 0 < n) :
    ∃ d ds, decimalDigits n = d :: ds ∧ d ≠ 0 := by
  induction n using Nat.strongRecOn with
  | ind n ih =>
    by_cases small : n < 10
    · refine ⟨n, [], ?_, by omega⟩
      unfold decimalDigits
      rw [Nat.toDigits_of_lt_base small]
      simp [Nat.toNat_digitChar_sub_48_of_lt_ten small]
    · obtain ⟨d, ds, hd, nonzero⟩ := ih (n / 10) (by omega) (by omega)
      refine ⟨d, ds ++ [((n % 10).digitChar).toNat - 48], ?_, nonzero⟩
      unfold decimalDigits at hd ⊢
      rw [Nat.toDigits_of_base_le (by decide) (by omega), List.map_append, hd]
      rfl

theorem readWhole_toDigits (skipping : Bool) {rest : List Symbol} (ends : EndsNumber rest)
    (n : Nat) :
    readWhole skipping (symbols (Nat.toDigits 10 n) ++ rest) = .ok (decimalDigits n, rest) := by
  unfold readWhole
  rw [readDigits_toDigits ends]
  by_cases h : n = 0
  · subst h
    rfl
  · obtain ⟨d, ds, hd, nonzero⟩ := decimalDigits_head (n := n) (by omega)
    rw [hd]
    split
    · next e => cases e
    · next e => cases e
    · next e => cases e; exact absurd rfl nonzero
    · next e => cases e; exact absurd rfl nonzero
    · next e => cases e; rfl

theorem readFraction_none (skipping : Bool) {rest : List Symbol} (ends : EndsNumber rest) :
    readFraction skipping rest = .ok (none, rest) := by
  unfold readFraction
  split
  · next tail => exact absurd rfl (ends _ tail rfl).2.1
  · rfl

theorem readExponent_none (skipping : Bool) {rest : List Symbol} (ends : EndsNumber rest) :
    readExponent skipping rest = .ok (none, rest) := by
  unfold readExponent
  dsimp only
  split
  · next tail => exact absurd rfl (ends _ tail rfl).2.2.1
  · next tail => exact absurd rfl (ends _ tail rfl).2.2.2
  · rfl

theorem number_integer (negative : Bool) (n : Nat) {value : Int} (inRange : InRange value)
    (hv : value = if negative then -(n : Int) else n) (zero : negative = true → n ≠ 0) :
    Literal.number ⟨negative, decimalDigits n, none, none⟩ = .ok (.integer value inRange) := by
  have small : n < wordLimit64 := by
    unfold wordLimit64
    unfold InRange at inRange
    split at hv <;> omega
  unfold Literal.number
  rw [accumulate_decimalDigits small]
  simp only [List.isEmpty_nil, Option.isNone_none, and_self, if_true, ← hv]
  rw [dif_pos]
  refine ⟨inRange, fun both => zero both.1 ?_⟩
  obtain ⟨isNegative, isZero⟩ := both
  rw [isNegative, if_pos rfl] at hv
  omega

/-- The text of an integer, read up to a character that does not continue a number, is the
integer. -/
theorem readNumber_integerText (skipping : Bool) {rest : List Symbol} (ends : EndsNumber rest)
    (value : Int) (inRange : InRange value) :
    readNumber skipping (symbols (integerText value) ++ rest) =
      .ok (some (.integer value inRange), rest) := by
  unfold readNumber integerText
  by_cases h : value < 0
  · have number := number_integer true value.natAbs inRange
      (by rw [if_pos rfl]; omega) (fun _ => by omega)
    rw [if_pos h]
    simp only [symbols, List.map_cons, List.cons_append]
    rw [readWhole_toDigits skipping ends]
    simp only [bind, Except.bind, readFraction_none skipping ends,
      readExponent_none skipping ends, number]
  · have number := number_integer false value.natAbs inRange
      (by rw [if_neg Bool.false_ne_true]; omega) (fun h => by cases h)
    rw [if_neg h]
    split
    next same =>
      have whole := readWhole_toDigits skipping ends value.natAbs
      split at same
      · next minus =>
        -- a decimal text does not start with a sign
        rw [minus] at whole
        cases whole
      · cases same
        simp only [whole, bind, Except.bind, readFraction_none skipping ends,
          readExponent_none skipping ends, number]

end CapabilityPipeline.Json
