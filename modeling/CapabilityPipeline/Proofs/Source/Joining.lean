import CapabilityPipeline.Proofs.Program.Composition
import CapabilityPipeline.Proofs.Source.FirstLines

/-!
# Lines joined to statements

The lines of a text that are not blank fall into blocks, one for each statement. A block has one
line and all the lines below that continue what stands above them, each seen from the text that
has been joined so far. No line is lost and none is used twice.

Results:

* `MadeOf`: a statement is made of the lines of its block.
* `Blocks`, `blocks_joinLines`: the lines in blocks, with the statements made of them.
* `Blocks.joinedText_eq`, `Blocks.numbers_sublist`: the texts and the numbers of the statements are
  those of the lines.
* `Blocks.starts_iff`: where a statement starts, seen from the lines above.
* `statements_joined`: what the lines of a text are joined to.
-/

namespace CapabilityPipeline.Source

/-- The texts of lines with a space between. -/
def joinedText (lines : List (Nat × List Char)) : List Char :=
  joinWith [' '] (lines.map Prod.snd)

theorem joinedText_append {above below : List (Nat × List Char)} (ha : above ≠ [])
    (hb : below ≠ []) :
    joinedText (above ++ below) = joinedText above ++ ' ' :: joinedText below := by
  rw [joinedText, List.map_append, joinWith_append _ (by simpa using ha) (by simpa using hb),
    List.append_assoc]
  rfl

/-- Tidy lines are joined to a tidy text. -/
theorem tidy_joinedText {lines : List (Nat × List Char)} (some : lines ≠ [])
    (tidy : ∀ l ∈ lines, Text.Tidy l.2) : Text.Tidy (joinedText lines) := by
  have nonempty : lines.map Prod.snd ≠ [] := by simpa using some
  apply (joined_joinWith nonempty).induction
  · intro a between b _ ha hb
    exact ha.append hb between
  · intro text ht
    obtain ⟨l, hl, rfl⟩ := List.mem_map.mp ht
    exact tidy l hl

/-- What keeps a line apart from a tidy text above. -/
theorem not_continues_iff {text line : List Char} (tidy : Text.Tidy text) :
    continues text line = false ↔ startsWithOperator line = false ∧
      endsWithOperator text = false ∧ openDepth text ≤ 0 := by
  rw [continues, needsContinuation, tidy.trimEnd_eq]
  simp only [Bool.or_eq_false_iff, decide_eq_false_iff_not, Int.not_lt]
  exact and_comm

/-! ## One statement -/

/-- The lines that a statement is made of. It has the number of the first, and every line below the
first continues what has been joined above it. -/
structure MadeOf (block : List (Nat × List Char)) (s : Statement) : Prop where
  number : block.head?.map Prod.fst = some s.line
  text : joinedText block = s.text
  joins : ∀ above n line below, block = above ++ (n, line) :: below → above ≠ [] →
    continues (joinedText above) line = true

namespace MadeOf

variable {block : List (Nat × List Char)} {s : Statement} {n : Nat} {line : List Char}

theorem ne_nil (h : MadeOf block s) : block ≠ [] := by
  rintro rfl
  have none := h.number
  simp at none

/-- In a block with distinct numbers only the first line has the number of the statement. -/
theorem first_of_number (h : MadeOf block s) (distinct : (block.map Prod.fst).Nodup)
    (outer : List (Nat × List Char)) {inner : List (Nat × List Char)} {l : Nat × List Char}
    (split : block = outer ++ l :: inner) (same : s.line = l.1) : outer = [] := by
  by_contra some
  obtain ⟨top, others, rfl⟩ := List.exists_cons_of_ne_nil some
  have number : top.1 = l.1 := by
    rw [← same]
    simpa [split] using h.number
  simp [split, number] at distinct

theorem number_mem (h : MadeOf block s) : s.line ∈ block.map Prod.fst := by
  apply List.mem_of_mem_head?
  rw [List.head?_map]
  exact h.number

theorem single (n : Nat) (line : List Char) : MadeOf [(n, line)] ⟨n, line⟩ := by
  refine ⟨rfl, rfl, ?_⟩
  intro above m l below same some
  obtain ⟨first, rest, rfl⟩ := List.exists_cons_of_ne_nil some
  simp at same

/-- A line that continues a statement is joined to it. -/
theorem concat (h : MadeOf block s) (goesOn : continues s.text line = true) :
    MadeOf (block ++ [(n, line)]) { s with text := s.text ++ ' ' :: line } := by
  refine ⟨?_, ?_, ?_⟩
  · obtain ⟨first, rest, rfl⟩ := List.exists_cons_of_ne_nil h.ne_nil
    exact h.number
  · rw [joinedText_append h.ne_nil (List.cons_ne_nil _ _), h.text]
    rfl
  · intro above m l below same some
    rcases List.eq_nil_or_concat below with rfl | ⟨inner, last, rfl⟩
    · obtain ⟨rfl, last⟩ := List.append_inj' same rfl
      simp only [List.cons.injEq, Prod.mk.injEq, and_true] at last
      rw [← last.2, h.text]
      exact goesOn
    · rw [List.concat_eq_append, ← List.cons_append, ← List.append_assoc] at same
      exact h.joins above m l inner (List.append_inj' same rfl).1 some

end MadeOf

/-! ## All statements -/

/-- Lines in blocks, with the statement made of each. A block ends before a line that does not
continue its statement. -/
inductive Blocks : List (Nat × List Char) → List Statement → Prop
  | nil : Blocks [] []
  | cons {block rest : List (Nat × List Char)} {s : Statement} {others : List Statement}
      (made : MadeOf block s) (ends : ∀ l ∈ rest.head?, continues s.text l.2 = false)
      (later : Blocks rest others) : Blocks (block ++ rest) (s :: others)

/-- The statement under way is made of the lines above and of those that continue it. -/
theorem blocks_joinLines_some {block : List (Nat × List Char)} {s : Statement}
    (made : MadeOf block s) (lines : List (Nat × List Char)) :
    Blocks (block ++ lines) (joinLines (some s) lines) := by
  induction lines generalizing block s with
  | nil => exact .cons made (by simp) .nil
  | cons first rest ih =>
    obtain ⟨n, line⟩ := first
    rw [joinLines]
    split
    · next goesOn =>
      have longer := ih (made.concat (n := n) goesOn)
      rwa [List.append_assoc] at longer
    · next apart =>
      apply Blocks.cons made
      · intro l hl
        obtain rfl : (n, line) = l := by simpa using hl
        exact Bool.eq_false_iff.mpr apart
      · exact ih (.single n line)

/-- **Lines are joined in blocks.** -/
theorem blocks_joinLines (lines : List (Nat × List Char)) :
    Blocks lines (joinLines none lines) := by
  cases lines with
  | nil => exact .nil
  | cons first rest => exact blocks_joinLines_some (.single first.1 first.2) rest

/-- A statement has this number. -/
def Starts (statements : List Statement) (n : Nat) : Prop :=
  ∃ s ∈ statements, s.line = n

theorem starts_cons {s : Statement} {others : List Statement} {n : Nat} :
    Starts (s :: others) n ↔ s.line = n ∨ Starts others n := by
  simp [Starts]

/-- One list behind another, split at a member: it is of the first list or of the second. -/
theorem append_split {α : Type} {block rest outer below : List α} {x : α}
    (h : block ++ rest = outer ++ x :: below) :
    (∃ inner, block = outer ++ x :: inner ∧ below = inner ++ rest) ∨
      ∃ between, outer = block ++ between ∧ rest = between ++ x :: below := by
  rcases List.append_eq_append_iff.mp h with above | ⟨inside, same, split⟩
  · exact .inr above
  · cases inside with
    | nil => exact .inr ⟨[], by rw [same, List.append_nil, List.append_nil], split.symm⟩
    | cons y inner =>
      obtain ⟨rfl, rfl⟩ := List.cons.inj split
      exact .inl ⟨inner, same, rfl⟩

namespace Blocks

variable {lines : List (Nat × List Char)} {found : List Statement}

theorem head_eq (h : Blocks lines found) :
    found.head?.map Statement.line = lines.head?.map Prod.fst := by
  cases h with
  | nil => rfl
  | cons made _ _ =>
    have number := made.number
    obtain ⟨first, rest, rfl⟩ := List.exists_cons_of_ne_nil made.ne_nil
    exact number.symm

/-- A statement starts on the first line. -/
theorem starts_head (h : Blocks lines found) : ∀ first ∈ lines.head?, Starts found first.1 := by
  intro first top
  have same := h.head_eq
  rw [top, Option.map_some] at same
  obtain ⟨s, head, number⟩ := Option.map_eq_some_iff.mp same
  exact ⟨s, List.mem_of_mem_head? head, number⟩

/-- **No text is lost.** -/
theorem joinedText_eq (h : Blocks lines found) :
    joinWith [' '] (found.map Statement.text) = joinedText lines := by
  induction h with
  | nil => rfl
  | @cons block rest s others made _ later ih =>
    by_cases last : rest = []
    · subst last
      have none : others = [] := by simpa using later.head_eq
      rw [none, List.append_nil, made.text]
      rfl
    · have some : others ≠ [] := by
        rintro rfl
        exact last (by simpa using later.head_eq.symm)
      have front := joinWith_append [' '] (List.cons_ne_nil s.text [])
        (by simpa using some : others.map Statement.text ≠ [])
      rw [joinedText_append made.ne_nil last, made.text, ← ih]
      simpa [joinWith] using front

/-- The numbers of statements are numbers of lines, in the same order. -/
theorem numbers_sublist (h : Blocks lines found) :
    (found.map Statement.line).Sublist (lines.map Prod.fst) := by
  induction h with
  | nil => exact .slnil
  | @cons block rest s others made _ _ ih =>
    have number := made.number
    obtain ⟨first, more, rfl⟩ := List.exists_cons_of_ne_nil made.ne_nil
    have same : first.1 = s.line := by simpa using number
    rw [List.map_append, List.map_cons, List.map_cons, same]
    exact (ih.trans (List.sublist_append_right _ _)).cons_cons _

theorem mem_of_starts (h : Blocks lines found) {n : Nat} (start : Starts found n) :
    n ∈ lines.map Prod.fst := by
  obtain ⟨s, hs, rfl⟩ := start
  exact h.numbers_sublist.subset (List.mem_map_of_mem hs)

/-- **Where a statement starts.** Let the last statement above a line start on the first of some
lines. Then another starts on this line if it does not continue those lines joined. -/
theorem starts_iff (h : Blocks lines found) (distinct : (lines.map Prod.fst).Nodup)
    {outer rest below : List (Nat × List Char)} {first : Nat × List Char} {n : Nat}
    {line : List Char} (split : lines = outer ++ first :: (rest ++ (n, line) :: below))
    (start : Starts found first.1) (latest : ∀ l ∈ rest, ¬ Starts found l.1) :
    Starts found n ↔ continues (joinedText (first :: rest)) line = false := by
  induction h generalizing outer with
  | nil => simp at split
  | @cons block more s others made ends later ih =>
    rw [List.map_append, List.nodup_append] at distinct
    obtain ⟨distinctBlock, distinctMore, disjoint⟩ := distinct
    have notLater {l : Nat × List Char} (hl : l ∈ block) : ¬ Starts others l.1 := fun starts =>
      disjoint _ (List.mem_map_of_mem hl) _ (later.mem_of_starts starts) rfl
    rcases append_split split with ⟨inner, rfl, inside⟩ | ⟨between, rfl, rfl⟩
    · -- the lines begin in this block, and so with its first line
      have same : s.line = first.1 := (starts_cons.mp start).resolve_right (notLater (by simp))
      obtain rfl := made.first_of_number distinctBlock outer rfl same
      rcases append_split inside.symm with ⟨deeper, rfl, -⟩ | ⟨between, rfl, rfl⟩
      · -- the line is of the block
        have goesOn := made.joins (first :: rest) n line deeper rfl (List.cons_ne_nil _ _)
        have own : s.line ≠ n := fun number => by
          have none := made.first_of_number distinctBlock (first :: rest) rfl number
          cases none
        rw [goesOn, starts_cons, or_iff_right own]
        exact iff_of_false (notLater (l := (n, line)) (by simp)) (by simp)
      · -- the line is below the block, and no line is between
        have top := later.starts_head
        cases between with
        | nil =>
          have apart := ends (n, line) rfl
          rw [List.append_nil, starts_cons]
          rw [← made.text] at apart
          exact iff_of_true (.inr (top (n, line) rfl)) apart
        | cons l between =>
          exact absurd (starts_cons.mpr (.inr (top l rfl))) (latest l (by simp))
    · -- the block stands above the lines
      have starts_below {l : Nat × List Char}
          (hl : l ∈ between ++ first :: (rest ++ (n, line) :: below)) :
          Starts (s :: others) l.1 ↔ Starts others l.1 := by
        rw [starts_cons, or_iff_right]
        exact disjoint _ made.number_mem _ (List.mem_map_of_mem hl)
      rw [starts_below (l := (n, line)) (by simp)]
      rw [starts_below (by simp)] at start
      refine ih distinctMore rfl start fun l hl => ?_
      rw [← starts_below (by simp [hl])]
      exact latest l hl

end Blocks

/-! ## Texts -/

/-- The line with this number begins a statement. -/
def Begins (cs : List Char) (n : Nat) : Prop := Starts (statements cs) n

/-- **What the lines of a text are joined to.** The texts of the statements are those of the lines
that are not blank, with blanks around them trimmed. The numbers of statements grow, and each is
the number of the line whose trimmed text the statement begins with. The first line begins a
statement. Another does if it starts with no operator, and if what is joined above it, from the
line at which the last statement begins, ends with no operator and has no more opening brackets
than closing ones. -/
theorem statements_joined (cs : List Char) :
    joinWith [' '] ((statements cs).map Statement.text) =
        joinWith [' '] (((Text.lines cs).map Text.trim).filter fun line => !line.isEmpty) ∧
      (statements cs).Pairwise (·.line < ·.line) ∧
      (∀ s ∈ statements cs, 0 < s.line ∧ ∃ line, (Text.lines cs)[s.line - 1]? = some line ∧
        Text.trim line ≠ [] ∧ Text.trim line <+: s.text) ∧
      (∀ first ∈ (numberedLines cs).head?, Begins cs first.1) ∧
      ∀ above first rest n line below,
        numberedLines cs = above ++ first :: (rest ++ (n, line) :: below) →
        Begins cs first.1 → (∀ l ∈ rest, ¬ Begins cs l.1) →
        (Begins cs n ↔ startsWithOperator line = false ∧
          endsWithOperator (joinedText (first :: rest)) = false ∧
          openDepth (joinedText (first :: rest)) ≤ 0) := by
  have blocks := blocks_joinLines (numberedLines cs)
  have whole : numberedLines cs = numberedFrom 1 (Text.lines cs) := rfl
  have growing : (numberedLines cs).Pairwise (·.1 < ·.1) := numberedFrom_pairwise 1 _
  have numbers : ((numberedLines cs).map Prod.fst).Pairwise (· < ·) :=
    List.pairwise_map.mpr growing
  refine ⟨?_, ?_, ?_, blocks.starts_head, ?_⟩
  · rw [← texts_numberedFrom 1]
    exact blocks.joinedText_eq
  · exact List.pairwise_map.mp (numbers.sublist blocks.numbers_sublist)
  · intro s hs
    obtain ⟨before, after, split⟩ := List.append_of_mem hs
    obtain ⟨above, first, below, lines, -, front⟩ := joinLines_split split
    have mem : (s.line, first) ∈ numberedFrom 1 (Text.lines cs) := by
      rw [← whole, lines]
      simp
    obtain ⟨positive, -, line, found, rfl, some⟩ := number_of_mem mem
    exact ⟨positive, line, found, some, front⟩
  · intro above first rest n line below split start latest
    have tidy : Text.Tidy (joinedText (first :: rest)) := by
      apply tidy_joinedText (List.cons_ne_nil _ _)
      intro l hl
      apply tidy_of_numberedLines l
      rw [split, ← List.cons_append, List.mem_append, List.mem_append]
      exact .inr (.inl hl)
    have starts := blocks.starts_iff (numbers.imp Nat.ne_of_lt) split start latest
    rw [Begins, statements, starts]
    exact not_continues_iff tidy

end CapabilityPipeline.Source
