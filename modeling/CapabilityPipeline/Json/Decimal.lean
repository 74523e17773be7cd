/-!
# Shortest decimals of binary fractions

A double stands for the exact value `mantissa · 2^exponent`, and every real close enough to it
rounds to it. Its shortest decimal is the decimal with the fewest digits among those reals,
and of several the one nearest to the value.

Results:

* `Binary.ofBits`: the exact value of the bits of a finite double.
* `Binary.shortest`: its shortest decimal.
* `Decimal.text`: a decimal in positional notation between `10^-5` and `10^16`, and with an
  exponent outside.
-/

namespace CapabilityPipeline.Json

/-- The number `digits · 10^exponent`. -/
structure Decimal where
  digits : Nat
  exponent : Int
  deriving DecidableEq, Repr

/-- The number `mantissa · 2^exponent`. The flag tells that the next smaller double is only
half as far away as the next larger one. -/
structure Binary where
  mantissa : Nat
  exponent : Int
  atBoundary : Bool
  deriving DecidableEq, Repr

namespace Binary

/-- The bit above those of the mantissa, which all but the smallest doubles have. -/
def hiddenBit : Nat := 4503599627370496

/-- The bit of the sign. -/
def signBit : Nat := 9223372036854775808

/-- The magnitude of the double with these bits. -/
def ofBits (bits : UInt64) : Binary :=
  let fraction := bits.toNat % hiddenBit
  let biased := bits.toNat / hiddenBit % 2048
  if biased = 0 then ⟨fraction, -1074, false⟩
  else ⟨hiddenBit + fraction, Int.ofNat biased - 1075, fraction = 0 && biased > 1⟩

/-- `a · 2^exponent · 10^-place` as a fraction, for a numerator `a`. -/
def scaled (a : Nat) (exponent place : Int) : Nat × Nat :=
  (a * Nat.pow 2 exponent.toNat * Nat.pow 10 (-place).toNat,
    Nat.pow 2 (-exponent).toNat * Nat.pow 10 place.toNat)

/-- The place of the first digit: the exponent `e` with `10^e ≤ value < 10^(e+1)`. -/
def firstPlace (b : Binary) : Int :=
  let (num, den) := scaled b.mantissa b.exponent 0
  if den ≤ num then Int.ofNat (Nat.toDigits 10 (num / den)).length - 1
  else
    let upper := Int.ofNat (Nat.toDigits 10 (den / num)).length
    if den ≤ num * Nat.pow 10 (upper.toNat - 1) then 1 - upper else -upper

/-- The multiple of `10^place` that rounds to the value, if there is one: of the two next to
the value the nearer, of two equally near the even one. -/
def atPlace (b : Binary) (place : Int) : Option Decimal :=
  let fine := b.exponent - 2
  let (value, unit) := scaled (4 * b.mantissa) fine place
  let (low, _) := scaled (4 * b.mantissa - if b.atBoundary then 1 else 2) fine place
  let (high, _) := scaled (4 * b.mantissa + 2) fine place
  let inside (n : Nat) : Bool :=
    if b.mantissa % 2 = 0 then low ≤ n * unit && n * unit ≤ high
    else low < n * unit && n * unit < high
  let below := value / unit
  let above := below + 1
  let belowIsNearer :=
    let gapBelow := value - below * unit
    let gapAbove := above * unit - value
    gapBelow < gapAbove || (gapBelow = gapAbove && below % 2 = 0)
  match inside below, inside above with
  | true, true => some ⟨if belowIsNearer then below else above, place⟩
  | true, false => some ⟨below, place⟩
  | false, true => some ⟨above, place⟩
  | false, false => none

/-- The decimal at the first of the given places, from coarse to fine, that has one. -/
def firstOf (b : Binary) : List Int → Decimal
  | [] => ⟨0, 0⟩
  | place :: finer => (b.atPlace place).getD (b.firstOf finer)

/-- The shortest decimal of a value. Seventeen digits always suffice. -/
def shortest (b : Binary) : Decimal :=
  if b.mantissa = 0 then ⟨0, 0⟩
  else
    let first := b.firstPlace
    b.firstOf ((List.range 18).map fun n => first + 1 - Int.ofNat n)

end Binary

namespace Decimal

/-- The decimal without trailing zeros among its digits. -/
def normalize (d : Decimal) : Decimal :=
  let digits := Nat.toDigits 10 d.digits
  let zeros := (digits.reverse.takeWhile (· == '0')).length
  if d.digits = 0 then ⟨0, 0⟩ else ⟨d.digits / Nat.pow 10 zeros, d.exponent + zeros⟩

/-- The text of a positive decimal. `point` is the number of digits before the point. -/
def text (d : Decimal) : List Char :=
  let digits := Nat.toDigits 10 d.normalize.digits
  let count := Int.ofNat digits.length
  let point := count + d.normalize.exponent
  let zeros (n : Int) := List.replicate n.toNat '0'
  if d.digits = 0 then ['0', '.', '0']
  else if 0 ≤ d.normalize.exponent ∧ point ≤ 16 then
    digits ++ zeros d.normalize.exponent ++ ['.', '0']
  else if 0 < point ∧ point ≤ 16 then
    digits.take point.toNat ++ ['.'] ++ digits.drop point.toNat
  else if -5 < point ∧ point ≤ 0 then
    ['0', '.'] ++ zeros (-point) ++ digits
  else
    let fraction := if digits.length = 1 then [] else '.' :: digits.drop 1
    let power := point - 1
    let sign := if power < 0 then '-' else '+'
    digits.take 1 ++ fraction ++ ['e', sign] ++ Nat.toDigits 10 power.natAbs

end Decimal

/-- The text of a finite double. -/
def doubleText (x : Float) : List Char :=
  let bits := x.toBits
  let magnitude := (Binary.ofBits bits).shortest.text
  if bits.toNat / Binary.signBit = 1 then '-' :: magnitude else magnitude

end CapabilityPipeline.Json
