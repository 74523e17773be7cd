import CapabilityPipeline.Json.Fault
import CapabilityPipeline.Json.Value
import CapabilityPipeline.Numbers.Word

/-!
# Reading numbers

A literal without fraction and exponent that fits 64 bits is an integer, except that minus
zero is a double. Any other literal is a double: its leading digits, as many as fit an unsigned
word, are multiplied or divided by a power of ten. Digits of the integer part that do not fit
raise the power, those of the fraction are dropped.

Results:

* `Literal.number`: the number of a literal, or that it is out of range.
* `readNumber`: a literal at the front of a text.
-/

namespace CapabilityPipeline.Json

open Text (Symbol)

/-! ## The number of a literal -/

/-- The digits of a number as written. -/
structure Literal where
  negative : Bool
  whole : List Nat
  fraction : Option (List Nat)
  /-- Whether the exponent is negative, and its digits. -/
  exponent : Option (Bool × List Nat)

namespace Literal

/-- The digits read into a number as long as it stays below a limit, and the digits left. -/
def accumulate (limit : Nat) : Nat → List Nat → Nat × List Nat
  | n, [] => (n, [])
  | n, d :: rest =>
    if n * 10 + d < limit then accumulate limit (n * 10 + d) rest else (n, d :: rest)

/-- The first exponent that is not read to its last digit. -/
def maxShift : Nat := 2147483648

/-- A significand times a power of ten. Powers below `10^-308` are divided out in steps. -/
def scale : (steps : Nat) → (significand : Float) → (power : Int) → Option Float
  | 0, x, _ => some x
  | steps + 1, x, power =>
    if power.natAbs ≤ 308 then
      let factor := Float.ofScientific 1 false power.natAbs
      let product := if 0 ≤ power then x * factor else x / factor
      if product.isInf then none else some product
    else if x == 0 then some x
    else if 0 ≤ power then none
    else scale steps (x / Float.ofScientific 1 false 308) (power + 308)

/-- A double with a sign. -/
def signed (negative : Bool) (x : Float) : Number :=
  .double (if negative then -x else x)

/-- The number of a literal. None stands for a number out of range, with the digits of the
exponent that were not looked at. -/
def number (l : Literal) : Except (List Nat) Number :=
  let (significand, unread) := accumulate wordLimit64 0 l.whole
  let (significand, power) := match l.fraction with
    | none => (significand, Int.ofNat unread.length)
    | some digits =>
      let (significand, dropped) := accumulate wordLimit64 significand digits
      (significand, Int.ofNat unread.length - Int.ofNat (digits.length - dropped.length))
  let scaled (power : Int) : Except (List Nat) Number :=
    match scale (power.natAbs + 1) (Float.ofNat significand) power with
    | some x => .ok (signed l.negative x)
    | none => .error []
  match l.exponent with
  | some (negative, digits) =>
    let (shift, unread) := accumulate maxShift 0 digits
    if unread.isEmpty then scaled (if negative then power - shift else power + shift)
    else if significand ≠ 0 ∧ !negative then .error (unread.drop 1)
    else .ok (signed l.negative 0)
  | none =>
    if l.fraction.isNone ∧ unread.isEmpty then
      let value : Int := if l.negative then -significand else significand
      if h : InRange value ∧ ¬(l.negative ∧ value = 0) then
        .ok (.integer value h.1)
      else scaled 0
    else scaled power

end Literal

/-! ## Reading a literal -/

/-- The value of a decimal digit. -/
def digitValue? : Symbol → Option Nat
  | .char c => if '0' ≤ c ∧ c ≤ '9' then some (c.toNat - 48) else none
  | .broken _ => none

/-- The digits at the front of a text, and the rest. -/
def readDigits : List Symbol → List Nat × List Symbol
  | [] => ([], [])
  | s :: rest =>
    match digitValue? s with
    | some d => let (digits, rest) := readDigits rest; (d :: digits, rest)
    | none => ([], s :: rest)

/-- What is wrong where a digit is missing and the text ends. -/
def missingDigit (skipping : Bool) : Cause :=
  if skipping then .invalidNumber else .endInValue

/-- The integer part: one zero, or digits that do not start with a zero. -/
def readWhole (skipping : Bool) (text : List Symbol) : Except Fault (List Nat × List Symbol) :=
  match readDigits text with
  | ([], []) => Fault.here (missingDigit skipping) []
  | ([], rest) => Fault.peeked .invalidNumber rest
  | ([0], rest) => .ok ([0], rest)
  | (0 :: _, _) => .error (Fault.after .invalidNumber 2 text)
  | (digits, rest) => .ok (digits, rest)

/-- The fraction, if there is a point. It has a digit. -/
def readFraction (skipping : Bool) :
    List Symbol → Except Fault (Option (List Nat) × List Symbol)
  | .char '.' :: rest =>
    match readDigits rest with
    | ([], []) => Fault.here (missingDigit skipping) []
    | ([], rest) => Fault.peeked .invalidNumber rest
    | (digits, rest) => .ok (some digits, rest)
  | text => .ok (none, text)

/-- The exponent, if there is a letter e. After a sign or none it has a digit. -/
def readExponent (skipping : Bool) (text : List Symbol) :
    Except Fault (Option (Bool × List Nat) × List Symbol) :=
  let digitsOf (negative : Bool) (text : List Symbol) :=
    match readDigits text with
    | ([], []) => Fault.here (missingDigit skipping) []
    | ([], rest) => Fault.peeked .invalidNumber rest
    | (digits, rest) => .ok (some (negative, digits), rest)
  let signOf : List Symbol → Except Fault (Option (Bool × List Nat) × List Symbol)
    | .char '+' :: rest => digitsOf false rest
    | .char '-' :: rest => digitsOf true rest
    | rest => digitsOf false rest
  match text with
  | .char 'e' :: rest => signOf rest
  | .char 'E' :: rest => signOf rest
  | rest => .ok (none, rest)

/-- The number at the front of a text. None stands for a number out of range in a part that
is skipped. -/
def readNumber (skipping : Bool) (text : List Symbol) :
    Except Fault (Option Number × List Symbol) := do
  let (negative, text) := match text with
    | .char '-' :: rest => (true, rest)
    | _ => (false, text)
  let (whole, text) ← readWhole skipping text
  let (fraction, text) ← readFraction skipping text
  let (exponent, rest) ← readExponent skipping text
  match Literal.number ⟨negative, whole, fraction, exponent⟩ with
  | .ok n => .ok (some n, rest)
  | .error unread =>
    if skipping then .ok (none, rest)
    else
      let seen := text.length - rest.length - unread.length
      Fault.here .numberOutOfRange (text.drop seen)

end CapabilityPipeline.Json
