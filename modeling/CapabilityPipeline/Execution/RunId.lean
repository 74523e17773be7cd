import CapabilityPipeline.Json.Printer

/-!
# Names of runs

A run that is given no name gets a random one: 32 hexadecimal digits in five groups, of which
two digits say that the rest is random.

Results:

* `runIdOfNumber`: the name of a random number of 128 bits.
* `length_runIdOfNumber`: every name has 36 characters.
-/

namespace CapabilityPipeline

/-- The digit of a name at a position: that of the number, but for the two that are fixed in
whole or in part. -/
def runIdDigit (n position : Nat) : Nat :=
  let digit := n / Nat.pow 16 (31 - position) % 16
  if position = 12 then 4
  else if position = 16 then 8 + digit % 4
  else digit

/-- The name of a random number. -/
def runIdOfNumber (n : Nat) : String :=
  String.ofList ((List.range 32).flatMap fun position =>
    let digit := Json.hexDigit (runIdDigit n position)
    if position ∈ [8, 12, 16, 20] then ['-', digit] else [digit])

/-- Every name has 36 characters. -/
theorem length_runIdOfNumber (n : Nat) : (runIdOfNumber n).length = 36 := by
  simp only [runIdOfNumber, String.length_ofList, List.length_flatMap, apply_ite List.length,
    List.length_cons, List.length_nil]
  decide

end CapabilityPipeline
