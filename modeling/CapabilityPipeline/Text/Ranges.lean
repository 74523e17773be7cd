/-!
# Character classes given by ranges

Unicode properties are tables of code point ranges. A class is such a table in ascending
order, and a character belongs to it when some range holds its code point.

Results:

* `inRanges`: membership of a character in a class.
-/

namespace CapabilityPipeline.Text

/-- Some range of the table holds the character's code point, ends included. -/
def inRanges (table : List (Nat × Nat)) (c : Char) : Bool :=
  table.any fun (first, last) => first ≤ c.toNat && c.toNat ≤ last

end CapabilityPipeline.Text
