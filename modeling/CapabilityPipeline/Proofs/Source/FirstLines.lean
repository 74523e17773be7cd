import Mathlib.Data.List.Forall2
import CapabilityPipeline.Proofs.Source.Concatenation

/-!
# The first lines of a text

Comments are stripped and statements are found from the front of a text to its end, so that the
lines above the start of a statement are read as if nothing followed them. They hold exactly the
statements before it.

Results:

* `physicalLines`, `firstLines`: the lines of a text, and the text of the first ones.
* `lines_keep`: what is left of a line without its comment is the front of the line.
* `numberedLines_firstLines`: the lines that are not blank among the first ones.
* `joinLines_split`: a statement starts with the line whose number it has, and the lines above
  hold the statements before it.
* `statements_firstLines`: the statements above the start of a statement.
* `StartsOn`, `startsOn_of_mem`: a statement starts on a line of the text with its comments.
-/

namespace CapabilityPipeline.Source

/-! ## Lines -/

/-- The pieces of a text between its line breaks. -/
def physicalLines (cs : List Char) : List (List Char) :=
  Text.splitAt (· == '\n') cs

theorem exists_physicalLines (cs : List Char) :
    ∃ piece others, physicalLines cs = piece :: others :=
  List.exists_cons_of_ne_nil (Text.splitAt_ne_nil _ cs)

theorem physicalLines_newline (rest : List Char) :
    physicalLines ('\n' :: rest) = [] :: physicalLines rest := rfl

theorem physicalLines_cons {c : Char} (newline : c ≠ '\n') {rest piece : List Char}
    {others : List (List Char)} (h : physicalLines rest = piece :: others) :
    physicalLines (c :: rest) = (c :: piece) :: others := by
  unfold physicalLines at h ⊢
  rw [Text.splitAt, h]
  simp [newline]

theorem physicalLines_of_not_mem {line : List Char} (h : '\n' ∉ line) :
    physicalLines line = [line] := by
  apply Text.splitAt_of_not_mem
  intro c hc
  simp only [beq_eq_false_iff_ne]
  rintro rfl
  exact h hc

theorem physicalLines_append {line : List Char} (h : '\n' ∉ line) (rest : List Char) :
    physicalLines (line ++ '\n' :: rest) = line :: physicalLines rest := by
  rw [physicalLines, Text.splitAt_append_separator (by rfl), ← physicalLines,
    physicalLines_of_not_mem h]
  rfl

/-- The first lines of a text, with a line break behind each. -/
def firstLines (k : Nat) (cs : List Char) : List Char :=
  ((physicalLines cs).take k).flatMap (· ++ ['\n'])

theorem firstLines_newline (k : Nat) (rest : List Char) :
    firstLines (k + 1) ('\n' :: rest) = '\n' :: firstLines k rest := rfl

theorem firstLines_cons {c : Char} (newline : c ≠ '\n') (k : Nat) (rest : List Char) :
    firstLines (k + 1) (c :: rest) = c :: firstLines (k + 1) rest := by
  obtain ⟨piece, others, pieces⟩ := exists_physicalLines rest
  rw [firstLines, firstLines, physicalLines_cons newline pieces, pieces]
  rfl

/-- The first lines are the front of a text up to a line break, unless they are all its lines. -/
theorem firstLines_succ (k : Nat) (cs : List Char) :
    (firstLines (k + 1) cs = cs ++ ['\n'] ∧ cs.count '\n' ≤ k) ∨
      ∃ above below, cs = above ++ '\n' :: below ∧ above.count '\n' = k ∧
        firstLines (k + 1) cs = above ++ ['\n'] := by
  induction cs generalizing k with
  | nil =>
    refine .inl ⟨?_, Nat.zero_le k⟩
    rw [firstLines, physicalLines, Text.splitAt, List.take_succ_cons, List.take_nil]
    rfl
  | cons c rest ih =>
    by_cases newline : c = '\n'
    · subst newline
      rw [firstLines_newline]
      cases k with
      | zero => exact .inr ⟨[], rest, rfl, rfl, rfl⟩
      | succ k =>
        rcases ih k with ⟨whole, few⟩ | ⟨above, below, same, count, first⟩
        · refine .inl ⟨by rw [whole, List.cons_append], ?_⟩
          rw [List.count_cons_self]
          exact Nat.succ_le_succ few
        · refine .inr ⟨'\n' :: above, below, by rw [same, List.cons_append], ?_, by rw [first]; rfl⟩
          rw [List.count_cons_self, count]
    · rw [firstLines_cons newline]
      rcases ih k with ⟨whole, few⟩ | ⟨above, below, same, count, first⟩
      · exact .inl ⟨by rw [whole, List.cons_append], by rwa [List.count_cons_of_ne newline]⟩
      · refine .inr ⟨c :: above, below, by rw [same, List.cons_append], ?_, by rw [first]; rfl⟩
        rw [List.count_cons_of_ne newline, count]

/-! ## Lines without comments -/

/-- A character is dropped only in a comment or where a comment starts. -/
theorem inComment_of_dropped {s : CommentScan} {c : Char} (h : (s.step c).1 = false) :
    (s.step c).2.inComment = true := by
  unfold CommentScan.step at h ⊢
  split at h
  · next comment => split at h <;> simp_all
  · split at h
    · split at h <;> simp_all
    · cases h

/-- **What the comment scanner keeps of a line is the front of it.** In a comment that is
nothing. -/
theorem lines_keep (s : CommentScan) (cs : List Char) :
    List.Forall₂ (· <+: ·) (physicalLines (s.keep cs)) (physicalLines cs) ∧
      (s.inComment = true → (physicalLines (s.keep cs)).head? = some []) := by
  -- Both go together: behind a character that is dropped, nothing more of its line is kept.
  induction cs generalizing s with
  | nil => exact ⟨.cons (List.prefix_refl _) .nil, fun _ => rfl⟩
  | cons c rest ih =>
    obtain ⟨fronts, silent⟩ := ih (s.step c).2
    by_cases newline : c = '\n'
    · subst newline
      rw [CommentScan.keep]
      simp only [CommentScan.step_newline, if_true, physicalLines_newline]
      exact ⟨.cons (List.prefix_refl _) fronts, fun _ => rfl⟩
    · obtain ⟨piece, others, pieces⟩ := exists_physicalLines rest
      obtain ⟨kept, keptOthers, keptPieces⟩ := exists_physicalLines ((s.step c).2.keep rest)
      rw [pieces, keptPieces] at fronts
      rw [physicalLines_cons newline pieces, CommentScan.keep]
      obtain ⟨front, later⟩ := List.forall₂_cons.mp fronts
      dsimp only
      split
      · next isKept =>
        rw [physicalLines_cons newline keptPieces]
        refine ⟨.cons ((List.prefix_cons_inj c).mpr front) later, fun comment => ?_⟩
        rw [CommentScan.step, if_pos comment, if_neg newline] at isKept
        cases isKept
      · next dropped =>
        have comment := silent (inComment_of_dropped (Bool.eq_false_iff.mpr dropped))
        rw [keptPieces, List.head?_cons, Option.some.injEq] at comment
        subst comment
        rw [keptPieces]
        exact ⟨.cons (List.nil_prefix) later, fun _ => rfl⟩

/-! ## Numbers -/

theorem number_of_mem {n : Nat} {lines : List (List Char)} {l : Nat × List Char}
    (h : l ∈ numberedFrom n lines) : n ≤ l.1 ∧ l.1 < n + lines.length ∧
      ∃ line, lines[l.1 - n]? = some line ∧ l.2 = Text.trim line ∧ l.2 ≠ [] := by
  obtain ⟨mem, some⟩ := List.mem_filter.mp h
  obtain ⟨⟨line, m⟩, numbered, rfl⟩ := List.mem_map.mp mem
  obtain ⟨above, below, found⟩ := List.mem_zipIdx numbered
  refine ⟨above, below, line, ?_, rfl, by simpa using some⟩
  rw [found]
  exact List.getElem?_eq_getElem _

/-- The numbers of lines grow. -/
theorem numberedFrom_pairwise (n : Nat) (lines : List (List Char)) :
    (numberedFrom n lines).Pairwise (·.1 < ·.1) := by
  induction lines generalizing n with
  | nil => exact .nil
  | cons line rest ih =>
    rw [numberedFrom_cons]
    split
    · exact ih (n + 1)
    · exact .cons (fun l hl => (number_of_mem hl).1) (ih (n + 1))

theorem numberedLines_bounds {cs : List Char} {l : Nat × List Char} (h : l ∈ numberedLines cs) :
    0 < l.1 ∧ l.1 ≤ cs.count '\n' + 1 := by
  rw [numberedLines_eq] at h
  obtain ⟨above, below, -⟩ := number_of_mem h
  rw [length_splitAt] at below
  exact ⟨above, by omega⟩

/-- A line break at the end of a text adds no line. -/
theorem numberedLines_concat_newline (cs : List Char) :
    numberedLines (stripComments (cs ++ ['\n'])) = numberedLines (stripComments cs) := by
  have nothing : numberedLines (CommentScan.keep (CommentScan.start.after (cs ++ ['\n'])) []) = [] :=
    rfl
  rw [stripComments_append, numberedLines_append, nothing, List.map_nil, List.append_nil]

/-- **The lines without comments among the first ones are those with small numbers.** -/
theorem numberedLines_firstLines (k : Nat) (cs : List Char) :
    numberedLines (stripComments (firstLines k cs)) =
      (numberedLines (stripComments cs)).filter fun l => l.1 ≤ k := by
  cases k with
  | zero =>
    refine (List.filter_eq_nil_iff.mpr fun l hl => ?_).symm
    have positive := (numberedLines_bounds hl).1
    simp only [decide_eq_true_eq]
    omega
  | succ k =>
    rcases firstLines_succ k cs with ⟨whole, few⟩ | ⟨above, below, rfl, count, first⟩
    · rw [whole, numberedLines_concat_newline]
      refine (List.filter_eq_self.mpr fun l hl => ?_).symm
      have bound := (numberedLines_bounds hl).2
      rw [count_stripComments] at bound
      simpa using Nat.le_trans bound (Nat.succ_le_succ few)
    · have kept : ∀ l ∈ numberedLines (stripComments above), decide (l.1 ≤ k + 1) = true := by
        intro l hl
        have bound := (numberedLines_bounds hl).2
        rw [count_stripComments, count] at bound
        exact decide_eq_true bound
      rw [first, numberedLines_concat_newline, stripComments_append, numberedLines_append,
        List.filter_append, count_stripComments, count, List.filter_eq_self.mpr kept]
      refine (List.append_right_eq_self.mpr (List.filter_eq_nil_iff.mpr fun l hl => ?_)).symm
      obtain ⟨l', hl', rfl⟩ := List.mem_map.mp hl
      have positive := (numberedLines_bounds hl').1
      simp only [decide_eq_true_eq]
      omega

/-! ## Statements -/

/-- The part of `joinLines_split` behind the first line of a statement. -/
theorem joinLines_some_split {current : Statement} {lines : List (Nat × List Char)}
    {before after : List Statement} {s : Statement}
    (h : joinLines (some current) lines = before ++ s :: after) (later : before ≠ []) :
    ∃ above first below, lines = above ++ (s.line, first) :: below ∧
      joinLines (some current) above = before ∧ first <+: s.text := by
  induction lines generalizing current before with
  | nil =>
    obtain ⟨b, rest, rfl⟩ := List.exists_cons_of_ne_nil later
    simp [joinLines] at h
  | cons first rest ih =>
    obtain ⟨n, line⟩ := first
    rw [joinLines] at h
    split at h
    · next joined =>
      obtain ⟨above, first, below, rfl, held, front⟩ := ih h later
      exact ⟨(n, line) :: above, first, below, rfl, by rw [joinLines, if_pos joined, held], front⟩
    · next apart =>
      obtain ⟨b, before, rfl⟩ := List.exists_cons_of_ne_nil later
      rw [List.cons_append, List.cons.injEq] at h
      obtain ⟨rfl, h⟩ := h
      by_cases next : before = []
      · subst next
        obtain ⟨more, others, same⟩ := joinLines_some ⟨n, line⟩ rest
        rw [same, List.nil_append, List.cons.injEq] at h
        obtain ⟨rfl, -⟩ := h
        exact ⟨[], line, rest, rfl, rfl, List.prefix_append _ _⟩
      · obtain ⟨above, first, below, rfl, held, front⟩ := ih h next
        exact ⟨(n, line) :: above, first, below, rfl, by rw [joinLines, if_neg apart, held], front⟩

/-- **A statement starts with the line whose number it has**, and the lines above hold the
statements before it. -/
theorem joinLines_split {lines : List (Nat × List Char)} {before after : List Statement}
    {s : Statement} (h : joinLines none lines = before ++ s :: after) :
    ∃ above first below, lines = above ++ (s.line, first) :: below ∧
      joinLines none above = before ∧ first <+: s.text := by
  cases lines with
  | nil => simp [joinLines] at h
  | cons first rest =>
    obtain ⟨n, line⟩ := first
    rw [joinLines] at h
    by_cases next : before = []
    · subst next
      obtain ⟨more, others, same⟩ := joinLines_some ⟨n, line⟩ rest
      rw [same, List.nil_append, List.cons.injEq] at h
      obtain ⟨rfl, -⟩ := h
      exact ⟨[], line, rest, rfl, rfl, List.prefix_append _ _⟩
    · obtain ⟨above, first, below, rfl, held, front⟩ := joinLines_some_split h next
      exact ⟨(n, line) :: above, first, below, rfl, held, front⟩

/-- **Above the start of a statement stand the statements before it.** -/
theorem statements_firstLines {cs : List Char} {before after : List Statement} {s : Statement}
    (h : statements (stripComments cs) = before ++ s :: after) :
    statements (stripComments (firstLines (s.line - 1) cs)) = before := by
  obtain ⟨above, first, below, lines, held, -⟩ := joinLines_split h
  have growing : (numberedLines (stripComments cs)).Pairwise (·.1 < ·.1) := by
    rw [numberedLines_eq]
    exact numberedFrom_pairwise ..
  have positive : 0 < s.line := (numberedLines_bounds (l := (s.line, first)) (by
    rw [lines]
    exact List.mem_append_right _ (List.mem_cons_self ..))).1
  rw [lines] at growing
  obtain ⟨-, growingBelow, smaller⟩ := List.pairwise_append.mp growing
  have larger := (List.pairwise_cons.mp growingBelow).1
  have kept : ∀ l ∈ above, decide (l.1 ≤ s.line - 1) = true := fun l hl => by
    have small := smaller l hl _ (List.mem_cons_self ..)
    simp only [decide_eq_true_eq] at small ⊢
    omega
  have dropped : ∀ l ∈ (s.line, first) :: below, ¬ decide (l.1 ≤ s.line - 1) = true := by
    intro l hl
    have large : s.line ≤ l.1 := by
      rcases List.mem_cons.mp hl with rfl | hl
      · exact Nat.le_refl _
      · exact Nat.le_of_lt (larger l hl)
    simp only [decide_eq_true_eq]
    omega
  rw [statements, numberedLines_firstLines, lines, List.filter_append,
    List.filter_eq_self.mpr kept, List.filter_eq_nil_iff.mpr dropped, List.append_nil, held]

/-- A statement starts on the line of a text with a number: what is left of the line without its
comment and the blanks around is not empty and is the front of the statement. -/
structure StartsOn (cs : List Char) (n : Nat) (s : Statement) : Prop where
  mem : s ∈ statements (stripComments cs)
  line : s.line = n
  /-- Lines are counted from one. -/
  positive : 0 < n
  begins : ∃ physical left, (physicalLines cs)[n - 1]? = some physical ∧
    (physicalLines (stripComments cs))[n - 1]? = some left ∧ left <+: physical ∧
    Text.trim left ≠ [] ∧ Text.trim left <+: s.text

/-- Every statement starts on the line whose number it has. -/
theorem startsOn_of_mem {cs : List Char} {s : Statement}
    (h : s ∈ statements (stripComments cs)) : StartsOn cs s.line s := by
  obtain ⟨before, after, split⟩ := List.append_of_mem h
  obtain ⟨above, first, below, lines, -, front⟩ := joinLines_split split
  have mem : (s.line, first) ∈ numberedLines (stripComments cs) := by
    rw [lines]
    exact List.mem_append_right _ (List.mem_cons_self ..)
  refine ⟨h, rfl, (numberedLines_bounds mem).1, ?_⟩
  rw [numberedLines_eq] at mem
  obtain ⟨-, -, left, found, rfl, some⟩ := number_of_mem mem
  have fronts := (lines_keep .start cs).1
  obtain ⟨inside, same⟩ := List.getElem?_eq_some_iff.mp found
  have inside' : s.line - 1 < (physicalLines cs).length := fronts.length_eq ▸ inside
  refine ⟨(physicalLines cs)[s.line - 1], left, List.getElem?_eq_getElem inside', found, ?_, some,
    front⟩
  rw [← same]
  exact fronts.get inside inside'

end CapabilityPipeline.Source
