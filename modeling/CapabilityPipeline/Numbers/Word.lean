/-!
# Words of a fixed number of bits

Counts and limits are natural numbers that must fit into a word of 32 or 64 bits.

Results:

* `wordLimit32`, `wordLimit64`: the first numbers that do not fit.
* `natOfDigits?`: the number that digits write, if it fits.
-/

namespace CapabilityPipeline

/-- The first number that a word of 32 bits cannot hold. -/
def wordLimit32 : Nat := 4294967296

/-- The first number that a word of 64 bits cannot hold. -/
def wordLimit64 : Nat := 18446744073709551616

/-- The number that ASCII digits write, if it is below a limit. A plus sign may precede
them. -/
def natOfDigits? (limit : Nat) (cs : List Char) : Option Nat :=
  let digits := match cs with
    | '+' :: rest => rest
    | _ => cs
  if digits.isEmpty || !digits.all fun c => '0' ≤ c && c ≤ '9' then none
  else
    let n := digits.foldl (fun n c => n * 10 + (c.toNat - 48)) 0
    if n < limit then some n else none

end CapabilityPipeline
