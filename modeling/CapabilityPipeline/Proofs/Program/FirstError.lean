import CapabilityPipeline.Proofs.Program.Concatenation
import CapabilityPipeline.Proofs.Source.FirstLines

/-!
# The first bad statement

Statements are read one after another, and the first that cannot be read ends the reading. Its
line is the line of the error, and the text above that line is a program of its own, or empty.

Results:

* `parseStatements_error`: the statement an error is about, and the program before it.
* `Program.statementsOf_concat_newline`: a line break at the end adds no statement.
* `Program.parse_error_line`: the line of an error, and the text above it.
-/

namespace CapabilityPipeline

open Source

/-- **An error is about the first statement that cannot be read.** The statements before it are a
program, after whose names it is read, and the error carries its line. -/
theorem parseStatements_error {known : NameSet} {statements : List Statement} {e : SyntaxError}
    (h : parseStatements known statements = .error e) :
    ∃ above bad below p, statements = above ++ bad :: below ∧
      parseStatements known above = .ok p ∧ e.line = some bad.line ∧
      parseStatement (p.namesAfter known) bad.text = .error e.cause := by
  induction statements generalizing known with
  | nil => cases h
  | cons statement rest ih =>
    rcases bind_eq_error.mp h with failed | ⟨item, read, h⟩
    · obtain ⟨cause, unread, rfl⟩ := mapError_eq_error.mp failed
      exact ⟨[], statement, rest, ⟨[], []⟩, rfl, rfl, rfl, unread⟩
    cases item with
    | binding b =>
      have failed : parseStatements (known.add b.name) rest = .error e := bind_pure_eq_error.mp h
      obtain ⟨above, bad, below, p, rfl, held, line, cause⟩ := ih failed
      exact ⟨statement :: above, bad, below, { p with bindings := b :: p.bindings }, rfl,
        bind_eq_ok.mpr ⟨_, read, bind_eq_ok.mpr ⟨p, held, rfl⟩⟩, line, cause⟩
    | pipeline pipeline =>
      have failed : parseStatements known rest = .error e := bind_pure_eq_error.mp h
      obtain ⟨above, bad, below, p, rfl, held, line, cause⟩ := ih failed
      exact ⟨statement :: above, bad, below, { p with pipelines := pipeline :: p.pipelines }, rfl,
        bind_eq_ok.mpr ⟨_, read, bind_eq_ok.mpr ⟨p, held, rfl⟩⟩, line, cause⟩

namespace Program

/-- A line break at the end of a text adds no statement. -/
theorem statementsOf_concat_newline (text : List Char) :
    statementsOf (String.ofList (text ++ ['\n'])) = statementsOf (String.ofList text) := by
  rw [statementsOf, statementsOf, String.toList_ofList, String.toList_ofList, statements,
    numberedLines_concat_newline]
  rfl

/-- A text without statements is an empty program. -/
theorem parse_eq_empty {code : String} (h : statementsOf code = []) :
    parse code = .error { line := none, cause := .emptyProgram } := by
  unfold parse
  split
  · rfl
  · next some => exact absurd h some

/-- **A syntax error points at the first bad statement.** If a text is no program, then it has
no statement at all, or the error carries the number of a line on which a statement starts, and
the text of the lines above, with or without its last line break, is a program or has no
statement. The error is what is wrong with the statement after the names that are assigned above. -/
theorem parse_error_line {code : String} {e : SyntaxError} (h : parse code = .error e) :
    (statementsOf code = [] ∧ e.line = none ∧ e.cause.message = "program is empty") ∨
      ∃ n bad p, e.line = some n ∧ StartsOn code.toList n bad ∧
        parseStatement (p.namesAfter .empty) bad.text = .error e.cause ∧
        ∀ above, above = firstLines (n - 1) code.toList ∨
            above ++ ['\n'] = firstLines (n - 1) code.toList →
          parse (String.ofList above) = .ok p ∨
            parse (String.ofList above) = .error { line := none, cause := .emptyProgram } := by
  by_cases none : statementsOf code = []
  · rw [parse_eq_empty none] at h
    cases h
    exact .inl ⟨none, rfl, rfl⟩
  rw [parse_of_ne_nil none] at h
  obtain ⟨before, bad, below, p, split, held, line, cause⟩ := parseStatements_error h
  have mem : bad ∈ statementsOf code := by
    rw [split]
    exact List.mem_append_right _ (List.mem_cons_self ..)
  refine .inr ⟨bad.line, bad, p, line, startsOn_of_mem mem, cause, fun above first => ?_⟩
  have same : statementsOf (String.ofList above) = before := by
    have front : statementsOf (String.ofList (firstLines (bad.line - 1) code.toList)) = before := by
      rw [statementsOf, String.toList_ofList]
      exact statements_firstLines split
    rcases first with rfl | ended
    · exact front
    · rw [← statementsOf_concat_newline, ended, front]
  by_cases empty : before = []
  · exact .inr (parse_eq_empty (same.trans empty))
  · exact .inl (parse_eq_ok.mpr ⟨by rwa [same], by rwa [same]⟩)

/-- A comment, a binding on two lines and a blank line above a target that is not closed. -/
theorem parse_error_line_unclosed :
    ∃ e, parse "# c\n$a = [m:find](\n\"b\")\n\n[m:send](\"# c\" # d" = .error e ∧
      e.line = some 5 ∧ ∃ p, parse "# c\n$a = [m:find](\n\"b\")\n\n" = .ok p := by
  have failed : parse "# c\n$a = [m:find](\n\"b\")\n\n[m:send](\"# c\" # d" =
      .error { line := some 5, cause := .scan (.missingClose .round) } := by decide +kernel
  rcases parse_error_line failed with ⟨-, unknown, -⟩ | ⟨n, bad, p, line, -, -, lines⟩
  · cases unknown
  · cases line
    refine ⟨_, failed, rfl, ?_⟩
    rcases lines "# c\n$a = [m:find](\n\"b\")\n\n".toList (.inl (by decide +kernel)) with ok | empty
    · exact ⟨p, ok⟩
    · exact absurd empty (by decide +kernel)

end Program

end CapabilityPipeline
