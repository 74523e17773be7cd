import CapabilityPipeline.Text.LowerCase

/-!
# Texts in lower case

Lower case makes no text shorter, and it neither removes nor makes any of the marks that join
words to one name.

Results:

* `lowerCasePoint_eq_iff`: no other character becomes a joiner, and a joiner stays as it is.
* `mem_lowerCase_iff`: a text has a joiner if it has it in lower case.
* `length_le_lowerCaseAfter`, `length_lowerCaseAfter`: the length of a text in lower case.
-/

namespace CapabilityPipeline.Text

/-- The marks that may join words to one name. -/
def joiners : List Char := ['_', '.', '-']

/-! ## One character -/

/-- No run of the table starts from a joiner or leads to one. -/
theorem joiner_outside_runs : ∀ run ∈ lowerCaseRuns, ∀ c ∈ joiners, 0 < c.toNat ∧
    (c.toNat < run.1 ∨ run.2.1 < c.toNat) ∧
      ((c.toNat : Int) < run.1 + run.2.2.2 ∨ run.2.1 + run.2.2.2 < (c.toNat : Int)) := by
  -- as one look at the table
  have outside : (lowerCaseRuns.all fun run => joiners.all fun c => decide (0 < c.toNat) &&
      (decide (c.toNat < run.1) || decide (run.2.1 < c.toNat)) &&
      (decide ((c.toNat : Int) < run.1 + run.2.2.2) ||
        decide (run.2.1 + run.2.2.2 < (c.toNat : Int)))) = true := by decide
  intro run hrun c hc
  simpa [and_assoc] using List.all_eq_true.mp (List.all_eq_true.mp outside run hrun) c hc

theorem lowerCasePoint_eq_iff {c : Char} (h : c ∈ joiners) (point : Nat) :
    lowerCasePoint point = c.toNat ↔ point = c.toNat := by
  unfold lowerCasePoint
  split
  · next first last stride shift found =>
    obtain ⟨positive, start, image⟩ := joiner_outside_runs _ (List.mem_of_find?_eq_some found) c h
    have within := List.find?_some found
    simp only [Bool.and_eq_true, decide_eq_true_eq] at within
    simp only [Int.ofNat_eq_natCast] at start image ⊢
    omega
  · exact Iff.rfl

/-- A number that is no code point makes the null character. -/
theorem toNat_of_eq_ofNat {c : Char} {n : Nat} (h : c = Char.ofNat n) (some : c ≠ '\x00') :
    c.toNat = n := by
  by_cases valid : n.isValidChar
  · rw [h, Char.ofNat, dif_pos valid]
    rfl
  · rw [Char.ofNat, dif_neg valid] at h
    exact absurd h some

/-- What one character becomes: one character, or two for a dotted capital I. It is a joiner
exactly when the character is. -/
theorem lowerCaseAfter_cons (before : List Char) (c : Char) (rest : List Char) :
    ∃ image, lowerCaseAfter before (c :: rest) = image ++ lowerCaseAfter (c :: before) rest ∧
      0 < image.length ∧ (c ≠ 'İ' → image.length = 1) ∧
      ∀ joiner ∈ joiners, joiner ∈ image ↔ joiner = c := by
  rw [lowerCaseAfter]
  refine ⟨_, rfl, ?_⟩
  split
  · next sigma =>
    subst sigma
    split <;> simp [joiners]
  split
  · next dotted =>
    subst dotted
    simp [joiners]
  · refine ⟨Nat.zero_lt_one, fun _ => rfl, fun joiner hj => ?_⟩
    rw [List.mem_singleton]
    constructor
    · intro image
      have point := toNat_of_eq_ofNat image fun null => absurd hj (null ▸ by decide)
      exact (Char.toNat_inj.mp ((lowerCasePoint_eq_iff hj _).mp point.symm)).symm
    · rintro rfl
      rw [(lowerCasePoint_eq_iff hj _).mpr rfl, Char.ofNat_toNat]

/-! ## Texts -/

theorem mem_lowerCaseAfter_iff {joiner : Char} (h : joiner ∈ joiners) (before cs : List Char) :
    joiner ∈ lowerCaseAfter before cs ↔ joiner ∈ cs := by
  induction cs generalizing before with
  | nil => exact Iff.rfl
  | cons c rest ih =>
    obtain ⟨image, same, -, -, mem⟩ := lowerCaseAfter_cons before c rest
    rw [same, List.mem_append, mem joiner h, ih, List.mem_cons]

/-- **A text has a joiner if it has it in lower case.** -/
theorem mem_lowerCase_iff {joiner : Char} (h : joiner ∈ joiners) (cs : List Char) :
    joiner ∈ lowerCase cs ↔ joiner ∈ cs :=
  mem_lowerCaseAfter_iff h [] cs

/-- Lower case makes no text shorter. -/
theorem length_le_lowerCaseAfter (before cs : List Char) :
    cs.length ≤ (lowerCaseAfter before cs).length := by
  induction cs generalizing before with
  | nil => exact Nat.le_refl 0
  | cons c rest ih =>
    obtain ⟨image, same, some, -⟩ := lowerCaseAfter_cons before c rest
    have later := ih (c :: before)
    rw [same, List.length_append, List.length_cons]
    omega

theorem length_lowerCaseAfter {cs : List Char} (h : 'İ' ∉ cs) (before : List Char) :
    (lowerCaseAfter before cs).length = cs.length := by
  induction cs generalizing before with
  | nil => rfl
  | cons c rest ih =>
    obtain ⟨image, same, -, one, -⟩ := lowerCaseAfter_cons before c rest
    obtain ⟨here, later⟩ := not_or.mp (mt List.mem_cons.mpr h)
    rw [same, List.length_append, one (Ne.symm here), ih later, List.length_cons, Nat.add_comm]

end CapabilityPipeline.Text
