import CapabilityPipeline.Text.Blank

/-!
# Trimmed texts

Results:

* `Tidy`: a text with no blank at either end.
* `Tidy.trim_between`: blanks around such a text are all that is trimmed.
* `eq_blanks_trim`, `tidy_trim`: what is trimmed is blank, and what remains is tidy or empty.
* `splitAt_of_not_mem`, `splitAt_append_separator`, `not_separates_of_mem_splitAt`: a text split at
  the characters that separate.
-/

namespace CapabilityPipeline.Text

/-! ## Blanks -/

/-- A text that begins and ends with a character that is no blank. -/
structure Tidy (cs : List Char) : Prop where
  head : ∃ c rest, cs = c :: rest ∧ isBlank c = false
  last : ∃ front c, cs = front ++ [c] ∧ isBlank c = false

/-- A text of blanks only. -/
def Blanks (cs : List Char) : Prop := ∀ c ∈ cs, isBlank c = true

theorem Tidy.ne_nil {cs : List Char} (h : Tidy cs) : cs ≠ [] := by
  obtain ⟨c, rest, rfl, -⟩ := h.head
  exact List.cons_ne_nil c rest

theorem Tidy.append {a b : List Char} (ha : Tidy a) (hb : Tidy b) (between : List Char) :
    Tidy (a ++ between ++ b) := by
  obtain ⟨c, rest, rfl, first⟩ := ha.head
  obtain ⟨front, d, rfl, last⟩ := hb.last
  exact ⟨⟨c, _, rfl, first⟩, ⟨c :: rest ++ between ++ front, d, (List.append_assoc ..).symm, last⟩⟩

theorem trimStart_blanks {blanks : List Char} (h : Blanks blanks) (cs : List Char) :
    trimStart (blanks ++ cs) = trimStart cs :=
  List.dropWhile_append_of_pos h

theorem trimEnd_blanks {blanks : List Char} (h : Blanks blanks) (cs : List Char) :
    trimEnd (cs ++ blanks) = trimEnd cs := by
  unfold trimEnd
  rw [List.reverse_append, List.dropWhile_append_of_pos fun c hc => h c (List.mem_reverse.mp hc)]

theorem trimStart_cons {c : Char} (h : isBlank c = false) (rest : List Char) :
    trimStart (c :: rest) = c :: rest :=
  List.dropWhile_cons_of_neg (by rw [h]; decide)

theorem Tidy.trimEnd_eq {cs : List Char} (h : Tidy cs) : trimEnd cs = cs := by
  obtain ⟨front, c, rfl, last⟩ := h.last
  unfold trimEnd
  rw [List.reverse_append, List.reverse_singleton, List.singleton_append,
    List.dropWhile_cons_of_neg (by rw [last]; decide), List.reverse_cons, List.reverse_reverse]

/-- Blanks around a tidy text are all that is trimmed. -/
theorem Tidy.trim_between {cs before after : List Char} (h : Tidy cs) (hb : Blanks before)
    (ha : Blanks after) : trim (before ++ cs ++ after) = cs := by
  unfold trim
  rw [List.append_assoc, trimStart_blanks hb]
  obtain ⟨c, rest, same, first⟩ := h.head
  rw [same, List.cons_append, trimStart_cons first, ← List.cons_append, ← same,
    trimEnd_blanks ha, h.trimEnd_eq]

theorem blanks_nil : Blanks [] := fun _ h => by cases h

theorem blanks_space : Blanks [' '] := fun _ h => by
  rw [List.mem_singleton.mp h]
  decide

theorem Tidy.trim_eq {cs : List Char} (h : Tidy cs) : trim cs = cs := by
  have := h.trim_between blanks_nil blanks_nil
  rwa [List.nil_append, List.append_nil] at this

theorem trimEnd_of_blanks {blanks : List Char} (h : Blanks blanks) : trimEnd blanks = [] := by
  have nothing := trimEnd_blanks h []
  rwa [List.nil_append] at nothing

/-- Blanks after a text do not change it trimmed. -/
theorem trim_blanks {blanks : List Char} (h : Blanks blanks) (cs : List Char) :
    trim (cs ++ blanks) = trim cs := by
  unfold trim trimStart
  rw [List.dropWhile_append]
  split
  · next none =>
    rw [List.isEmpty_iff.mp none]
    exact trimEnd_of_blanks fun c hc => h c (List.dropWhile_sublist _ |>.mem hc)
  · exact trimEnd_blanks h _

theorem eq_blanks_trimStart (cs : List Char) :
    ∃ before, Blanks before ∧ cs = before ++ trimStart cs :=
  ⟨cs.takeWhile isBlank, fun c hc => List.all_eq_true.mp List.all_takeWhile c hc,
    List.takeWhile_append_dropWhile.symm⟩

theorem eq_trimEnd_blanks (cs : List Char) : ∃ after, Blanks after ∧ cs = trimEnd cs ++ after := by
  obtain ⟨before, blanks, same⟩ := eq_blanks_trimStart cs.reverse
  refine ⟨before.reverse, fun c hc => blanks c (List.mem_reverse.mp hc), ?_⟩
  have reversed := congrArg List.reverse same
  rwa [List.reverse_reverse, List.reverse_append] at reversed

/-- A text is what it is trimmed to, between blanks. -/
theorem eq_blanks_trim (cs : List Char) :
    ∃ before after, Blanks before ∧ Blanks after ∧ cs = before ++ trim cs ++ after := by
  obtain ⟨before, hb, front⟩ := eq_blanks_trimStart cs
  obtain ⟨after, ha, back⟩ := eq_trimEnd_blanks (trimStart cs)
  refine ⟨before, after, hb, ha, ?_⟩
  rw [List.append_assoc, trim, ← back, ← front]

theorem head_trimStart {cs : List Char} (h : trimStart cs ≠ []) :
    ∃ c rest, trimStart cs = c :: rest ∧ isBlank c = false := by
  obtain ⟨c, rest, same⟩ := List.exists_cons_of_ne_nil h
  have first := List.head?_dropWhile_not isBlank cs
  rw [← trimStart, same] at first
  exact ⟨c, rest, same, by simpa using first⟩

/-- A trimmed text is tidy unless nothing is left. -/
theorem tidy_trim {cs : List Char} (h : trim cs ≠ []) : Tidy (trim cs) := by
  constructor
  · obtain ⟨after, ha, back⟩ := eq_trimEnd_blanks (trimStart cs)
    rw [← trim] at back
    have some : trimStart cs ≠ [] := by
      intro none
      rw [none] at back
      exact h (List.append_eq_nil_iff.mp back.symm).1
    obtain ⟨c, rest, same, first⟩ := head_trimStart some
    obtain ⟨d, front, start⟩ := List.exists_cons_of_ne_nil h
    rw [same, start, List.cons_append, List.cons.injEq] at back
    exact ⟨d, front, start, back.1 ▸ first⟩
  · unfold trim trimEnd at h ⊢
    have some : trimStart (trimStart cs).reverse ≠ [] := fun none => h (by
      rw [← trimStart, none, List.reverse_nil])
    obtain ⟨c, rest, same, last⟩ := head_trimStart some
    refine ⟨rest.reverse, c, ?_, last⟩
    rw [← trimStart, same, List.reverse_cons]

/-- No blanks stand at the end of a tidy text. -/
theorem Tidy.blanks_eq_nil {cs blanks : List Char} (h : Tidy (cs ++ blanks)) (hb : Blanks blanks) :
    blanks = [] := by
  obtain ⟨after, -, back⟩ := eq_trimEnd_blanks cs
  have same : cs ++ blanks = trimEnd cs := by rw [← h.trimEnd_eq, trimEnd_blanks hb]
  rw [← same, List.append_assoc] at back
  exact (List.append_eq_nil_iff.mp (List.self_eq_append_right.mp back)).1

/-- The end of a tidy text has no blanks to trim. -/
theorem Tidy.trimEnd_right {front cs : List Char} (h : Tidy (front ++ cs)) : trimEnd cs = cs := by
  obtain ⟨after, blanks, back⟩ := eq_trimEnd_blanks cs
  rw [back, ← List.append_assoc] at h
  rw [h.blanks_eq_nil blanks, List.append_nil] at back
  exact back.symm

theorem blanks_trim {blanks : List Char} (h : Blanks blanks) (cs : List Char) :
    trim (blanks ++ cs) = trim cs := by
  rw [trim, trim, trimStart_blanks h]

theorem trim_trimStart (cs : List Char) : trim (trimStart cs) = trim cs := by
  obtain ⟨before, blanks, front⟩ := eq_blanks_trimStart cs
  rw [← blanks_trim blanks, ← front]

theorem trim_trimEnd (cs : List Char) : trim (trimEnd cs) = trim cs := by
  obtain ⟨after, blanks, back⟩ := eq_trimEnd_blanks cs
  rw [← trim_blanks blanks, ← back]

theorem trim_trim (cs : List Char) : trim (trim cs) = trim cs := by
  have inner : trim (trim cs) = trim (trimStart cs) := trim_trimEnd _
  rw [inner, trim_trimStart]

theorem trim_eq_nil_iff {cs : List Char} : trim cs = [] ↔ Blanks cs := by
  constructor
  · intro none
    obtain ⟨before, after, hb, ha, same⟩ := eq_blanks_trim cs
    rw [none, List.append_nil] at same
    rw [same]
    exact fun c hc => (List.mem_append.mp hc).elim (hb c) (ha c)
  · intro blanks
    have nothing := blanks_trim blanks []
    rwa [List.append_nil] at nothing

/-- Only the first of two texts is trimmed at the start, unless it is blank. -/
theorem trimStart_append {cs : List Char} (h : trim cs ≠ []) (rest : List Char) :
    trimStart (cs ++ rest) = trimStart cs ++ rest := by
  unfold trimStart
  rw [List.dropWhile_append, if_neg]
  intro none
  refine h ?_
  unfold trim trimStart
  rw [List.isEmpty_iff.mp none]
  rfl

/-- Only the second of two texts is trimmed at the end, unless it is blank. -/
theorem trimEnd_append {cs : List Char} (h : trim cs ≠ []) (front : List Char) :
    trimEnd (front ++ cs) = front ++ trimEnd cs := by
  unfold trimEnd
  rw [List.reverse_append, List.dropWhile_append, if_neg, List.reverse_append,
    List.reverse_reverse]
  intro none
  refine h ?_
  rw [← trim_trimEnd]
  unfold trimEnd
  rw [List.isEmpty_iff.mp none]
  rfl

/-! ## Pieces -/

theorem splitAt_ne_nil (separates : Char → Bool) (cs : List Char) : splitAt separates cs ≠ [] := by
  cases cs with
  | nil => exact List.cons_ne_nil _ _
  | cons c rest =>
    rw [splitAt]
    split
    · exact List.cons_ne_nil _ _
    · split <;> exact List.cons_ne_nil _ _

/-- The pieces of two texts with a separator between them. -/
theorem splitAt_append_separator {separates : Char → Bool} {c : Char} (hc : separates c = true)
    (a b : List Char) :
    splitAt separates (a ++ c :: b) = splitAt separates a ++ splitAt separates b := by
  induction a with
  | nil => simp [splitAt, hc]
  | cons d a ih =>
    obtain ⟨piece, others, same⟩ :=
      List.exists_cons_of_ne_nil (splitAt_ne_nil separates a)
    rw [List.cons_append, splitAt, splitAt, ih, same]
    split <;> rfl

theorem splitAt_of_not_mem {separates : Char → Bool} {cs : List Char}
    (h : ∀ c ∈ cs, separates c = false) : splitAt separates cs = [cs] := by
  induction cs with
  | nil => rfl
  | cons c rest ih =>
    rw [splitAt, h c (List.mem_cons_self ..), ih fun d hd => h d (List.mem_cons_of_mem _ hd)]
    rfl

/-- The pieces of a text hold no separators. -/
theorem not_separates_of_mem_splitAt {separates : Char → Bool} {cs piece : List Char}
    (h : piece ∈ splitAt separates cs) : ∀ c ∈ piece, separates c = false := by
  induction cs generalizing piece with
  | nil =>
    intro c hc
    rw [List.mem_singleton.mp h] at hc
    cases hc
  | cons d rest ih =>
    obtain ⟨first, others, same⟩ := List.exists_cons_of_ne_nil (splitAt_ne_nil separates rest)
    rw [splitAt, same] at h
    rw [same] at ih
    split at h
    · intro c hc
      rcases List.mem_cons.mp h with rfl | later
      · cases hc
      · exact ih later c hc
    · next ordinary =>
      intro c hc
      rcases List.mem_cons.mp h with rfl | later
      · rcases List.mem_cons.mp hc with rfl | inside
        · exact Bool.eq_false_iff.mpr ordinary
        · exact ih (List.mem_cons_self ..) c inside
      · exact ih (List.mem_cons_of_mem _ later) c hc

end CapabilityPipeline.Text
