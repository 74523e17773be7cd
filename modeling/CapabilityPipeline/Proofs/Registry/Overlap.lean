import CapabilityPipeline.Proofs.Registry.Widening
import Mathlib.Algebra.BigOperators.Ring.Finset
import Mathlib.Algebra.Order.Field.Rat

/-!
# Points of a query in a text

The points of a query in a text are a sum over the words of the query. A word that the text has
counts one point. Any other word counts half a point if one of it and some word of the text begins
with the other, and the shorter one has at least four characters. Words that only have a common
beginning count nothing, however long it is, so that two forms of one verb may miss each other.

Results:

* `StemOf`, `Related`, `CommonStem`: one word begins with another, either begins with the other,
  both begin with a third.
* `points`: the points of a query in a text, for a choice of words that count half.
* `sharesStem_iff`: which of two words is longer in bytes does not matter.
* `overlap_points`: half points are the points for related words, twice.
* `overlap_ne_commonStem`: they are not the points for words with a common stem.
-/

namespace CapabilityPipeline

/-! ## Stems -/

/-- A word begins with another that has at least four characters. -/
def StemOf (stem word : String) : Prop :=
  4 ≤ stem.toList.length ∧ stem.toList <+: word.toList

instance (stem word : String) : Decidable (StemOf stem word) :=
  inferInstanceAs (Decidable (_ ∧ _))

/-- One of two words is the stem of the other. -/
def Related (a b : String) : Prop := StemOf a b ∨ StemOf b a

instance : DecidableRel Related := fun _ _ => inferInstanceAs (Decidable (_ ∨ _))

/-- Both words begin alike, with at least four characters. -/
def CommonStem (a b : String) : Prop := ∃ stem, StemOf stem a ∧ StemOf stem b

/-- The first four characters are a common stem if there is any. -/
theorem commonStem_iff {a b : String} : CommonStem a b ↔
    4 ≤ a.toList.length ∧ StemOf (String.ofList (a.toList.take 4)) b := by
  unfold CommonStem StemOf
  rw [String.toList_ofList, List.length_take]
  constructor
  · rintro ⟨stem, ⟨long, frontA⟩, -, frontB⟩
    have longer : 4 ≤ a.toList.length := Nat.le_trans long frontA.length_le
    have first : a.toList.take 4 <+: stem.toList :=
      List.prefix_of_prefix_length_le (List.take_prefix 4 _) frontA (by
        rw [List.length_take]
        omega)
    exact ⟨longer, by omega, first.trans frontB⟩
  · rintro ⟨longer, -, frontB⟩
    refine ⟨String.ofList (a.toList.take 4), ?_, ?_⟩ <;>
      rw [String.toList_ofList, List.length_take]
    · exact ⟨by omega, List.take_prefix 4 _⟩
    · exact ⟨by omega, frontB⟩

instance : DecidableRel CommonStem := fun _ _ => decidable_of_iff _ commonStem_iff.symm

/-! ## Sizes -/

/-- A word has at least the bytes of what it begins with. -/
theorem utf8ByteSize_mono {a b : String} (h : a.toList <+: b.toList) :
    a.utf8ByteSize ≤ b.utf8ByteSize := by
  obtain ⟨rest, same⟩ := h
  rw [← String.ofList_toList (s := b), ← same, String.ofList_append, String.ofList_toList,
    String.utf8ByteSize_append]
  exact Nat.le_add_right _ _

/-- A word that another begins with, and that has no fewer bytes, is the other. -/
theorem eq_of_prefix_of_utf8ByteSize_le {a b : String} (h : a.toList <+: b.toList)
    (size : b.utf8ByteSize ≤ a.utf8ByteSize) : a = b := by
  obtain ⟨rest, same⟩ := h
  have whole : b = a ++ String.ofList rest := by
    rw [← String.ofList_toList (s := b), ← same, String.ofList_append, String.ofList_toList]
  rw [whole, String.utf8ByteSize_append] at size
  have none : String.ofList rest = "" := String.utf8ByteSize_eq_zero_iff.mp (by omega)
  rw [whole, none, String.append_empty]

/-- **Which of two words has more bytes does not matter**: what is tested is that one begins with
the other. -/
theorem sharesStem_iff {a b : String} : sharesStem a b = true ↔ Related a b := by
  unfold sharesStem Related StemOf
  by_cases size : a.utf8ByteSize ≤ b.utf8ByteSize
  · simp only [size, if_true, Bool.and_eq_true, decide_eq_true_eq, List.isPrefixOf_iff_prefix]
    refine ⟨.inl, fun h => h.elim id fun ⟨long, front⟩ => ?_⟩
    obtain rfl := eq_of_prefix_of_utf8ByteSize_le front size
    exact ⟨long, front⟩
  · simp only [size, if_false, Bool.and_eq_true, decide_eq_true_eq, List.isPrefixOf_iff_prefix]
    refine ⟨.inr, fun h => h.elim (fun ⟨_, front⟩ => ?_) id⟩
    exact absurd (utf8ByteSize_mono front) size

/-! ## Points -/

/-- The points of a word in a text: one if the text has the word, half if it has one that counts
half for it. -/
def wordPoints (half : String → String → Prop) [DecidableRel half] (text : NameSet)
    (word : String) : ℚ :=
  if text.contains word then 1
  else if ∃ other ∈ text.keys, half word other then 1 / 2
  else 0

/-- The points of a query in a text, those of its words together. -/
def points (half : String → String → Prop) [DecidableRel half] (query text : NameSet) : ℚ :=
  (query.keys.map (wordPoints half text)).sum

theorem keywordScore_eq (text : NameSet) (word : String) :
    (keywordScore text word : ℚ) / 2 = wordPoints Related text word := by
  have found : (text.keys.any fun other => sharesStem word other) = true ↔
      ∃ other ∈ text.keys, Related word other := by
    simp only [List.any_eq_true, sharesStem_iff]
  unfold keywordScore wordPoints
  by_cases has : text.contains word = true
  · rw [if_pos has, if_pos has]
    norm_num
  · rw [if_neg has, if_neg has]
    simp only [found]
    split <;> norm_num

/-- **The points of a query in a text**: one for each word that the text has, half for each other
word that is related to a word of the text, and nothing for the rest. -/
theorem overlap_points (query text : NameSet) :
    (overlap query text : ℚ) / 2 = points Related query text := by
  calc (overlap query text : ℚ) / 2
      = (query.keys.map fun word => (keywordScore text word : ℚ)).sum / 2 := by
        rw [overlap_eq_sum, Nat.cast_list_sum, List.map_map]
        rfl
    _ = (query.keys.map fun word => (keywordScore text word : ℚ) / 2).sum := by
        simp only [div_eq_mul_inv, List.sum_map_mul_right]
    _ = points Related query text := by
        simp only [keywordScore_eq]
        rfl

/-- **Words with a common stem need not count.** Who asks about forecasting does not find the
forecasts. -/
theorem overlap_ne_commonStem :
    (overlap (.ofNames ["forecasting", "weather"]) (.ofNames ["city", "forecasts", "weather"]) : ℚ)
      / 2 ≠ points CommonStem (.ofNames ["forecasting", "weather"])
        (.ofNames ["city", "forecasts", "weather"]) := by
  have counted : overlap (.ofNames ["forecasting", "weather"])
      (.ofNames ["city", "forecasts", "weather"]) = 2 := by decide +kernel
  have alike : points CommonStem (.ofNames ["forecasting", "weather"])
      (.ofNames ["city", "forecasts", "weather"]) = 3 / 2 := by decide +kernel
  rw [counted, alike]
  norm_num

end CapabilityPipeline
