import CapabilityPipeline.Proofs.Source.Balanced
import CapabilityPipeline.Proofs.Text.Trim
import CapabilityPipeline.Source.Statement

/-!
# One text after another

A text may follow another on a new line. Comments are stripped from the second text as if it
stood alone when the first leaves the comment scanner where it started. Statements of the second
text stay apart from those of the first when the last of these is complete and no line of the
second continues it.

Results:

* `CommentScan.keep_append`: the comment scanner works through one text, then through the next.
* `ClosesLines`, `LeavesComments`: the first text leaves the scanner at its start, and does not
  change which comments of the second are stripped.
* `ClosesLines.leavesComments`: the one implies the other, whatever the second text.
* `keep_of_not_closesLines`: otherwise a `#` at the start of the second text is kept.
* `statements_append`: the statements of both texts, those of the second further down.
-/

namespace CapabilityPipeline.Source

/-! ## Comments -/

namespace CommentScan

/-- Where the scanner stands after a text. -/
def after (s : CommentScan) (cs : List Char) : CommentScan :=
  cs.foldl (fun s c => (s.step c).2) s

/-- The scanner works through one text, then through the next. -/
theorem keep_append (s : CommentScan) (a b : List Char) :
    s.keep (a ++ b) = s.keep a ++ (s.after a).keep b := by
  induction a generalizing s with
  | nil => rfl
  | cons c a ih =>
    rw [List.cons_append, keep, keep]
    simp only [ih]
    split <;> rfl

theorem after_append (s : CommentScan) (a b : List Char) :
    s.after (a ++ b) = (s.after a).after b := List.foldl_append

theorem after_concat (s : CommentScan) (cs : List Char) (c : Char) :
    s.after (cs ++ [c]) = ((s.after cs).step c).2 := by
  rw [after, List.foldl_append]
  rfl

/-- A line break is always kept. -/
theorem step_newline (s : CommentScan) : (s.step '\n').1 = true := by
  unfold step
  split
  · rfl
  · split <;> simp

/-- Line breaks are kept. -/
theorem count_keep (s : CommentScan) (cs : List Char) :
    (s.keep cs).count '\n' = cs.count '\n' := by
  induction cs generalizing s with
  | nil => rfl
  | cons c rest ih =>
    rw [keep]
    by_cases newline : c = '\n'
    · subst newline
      simp only [step_newline, if_true, List.count_cons_self, ih]
    · dsimp only
      split <;> simp [newline, ih]

/-- After a line break the scanner is at its start, or still inside a literal or a target. -/
theorem after_newline (s : CommentScan) : (s.step '\n').2 = start ∨
    ∃ quote parens, (s.step '\n').2 = ⟨false, quote, parens, true⟩ ∧
      (quote ≠ .outside ∨ parens ≠ 0) := by
  obtain ⟨inComment, quote, parens, afterBlank⟩ := s
  cases inComment with
  | true => exact .inl rfl
  | false =>
    cases quote with
    | outside => exact .inl rfl
    | inside =>
      cases parens with
      | zero => exact .inl rfl
      | succ n => exact .inr ⟨.outside, n + 1, rfl, .inr (Nat.succ_ne_zero n)⟩
    | escaped => exact .inr ⟨.inside, parens, rfl, .inl (by decide)⟩

/-- Nothing of a comment is kept within its line, and the scanner stays in it. -/
theorem keep_comment {s : CommentScan} (inside : s.inComment = true) {comment : List Char}
    (h : '\n' ∉ comment) : s.keep comment = [] ∧ s.after comment = s := by
  induction comment with
  | nil => exact ⟨rfl, rfl⟩
  | cons c rest ih =>
    obtain ⟨newline, later⟩ := not_or.mp (mt List.mem_cons.mpr h)
    have dropped : s.step c = (false, s) := by simp [step, inside, Ne.symm newline]
    rw [keep, after, List.foldl_cons, dropped]
    exact ih later

/-- Inside a literal or a target a `#` starts no comment. -/
theorem keep_hash {quote : Quote} {parens : Nat} (h : quote ≠ .outside ∨ parens ≠ 0)
    (afterBlank : Bool) (rest : List Char) :
    ∃ quote', keep ⟨false, quote, parens, afterBlank⟩ ('#' :: rest) =
      '#' :: keep ⟨false, quote', parens, false⟩ rest := by
  by_cases outside : quote = .outside
  · subst outside
    have open_ : parens ≠ 0 := h.resolve_left (fun not => not rfl)
    refine ⟨.outside, ?_⟩
    rw [keep, step]
    simp [open_, next_outside, Text.isBlank]
  · exact ⟨_, keep_inside (by decide) parens afterBlank quote outside rest⟩

/-- Where no `#` is, nothing is stripped. -/
theorem keep_of_hash_not_mem {cs : List Char} (h : '#' ∉ cs) (quote : Quote) (parens : Nat)
    (afterBlank : Bool) : keep ⟨false, quote, parens, afterBlank⟩ cs = cs := by
  induction cs generalizing quote parens afterBlank with
  | nil => rfl
  | cons c rest ih =>
    obtain ⟨hash, later⟩ := not_or.mp (mt List.mem_cons.mpr h)
    rw [keep, step]
    by_cases outside : quote = .outside
    · simp [outside, Ne.symm hash, ih later]
    · simp [outside, ih later]

end CommentScan

/-- After the text and a line break the comment scanner stands as at the start of a text. -/
def ClosesLines (a : List Char) : Prop :=
  CommentScan.start.after (a ++ ['\n']) = .start

instance (a : List Char) : Decidable (ClosesLines a) :=
  inferInstanceAs (Decidable (_ = _))

/-- The comments stripped from a text on the lines after another are its own. -/
def LeavesComments (a b : List Char) : Prop :=
  stripComments (a ++ '\n' :: b) = stripComments a ++ '\n' :: stripComments b

instance (a b : List Char) : Decidable (LeavesComments a b) :=
  inferInstanceAs (Decidable (_ = _))

/-- The text below is scanned from where the text above leaves the scanner. -/
theorem stripComments_append (a b : List Char) : stripComments (a ++ '\n' :: b) =
    stripComments a ++ '\n' :: (CommentScan.start.after (a ++ ['\n'])).keep b := by
  unfold stripComments
  rw [CommentScan.keep_append, CommentScan.keep, CommentScan.after_concat]
  simp only [CommentScan.step_newline, if_true]

theorem count_stripComments (cs : List Char) :
    (stripComments cs).count '\n' = cs.count '\n' :=
  CommentScan.count_keep ..

/-- **A text that closes its lines leaves the comments of any other as they are.** -/
theorem ClosesLines.leavesComments {a : List Char} (h : ClosesLines a) (b : List Char) :
    LeavesComments a b := by
  rw [LeavesComments, stripComments_append, h]
  rfl

/-- **Below a text that does not close its lines a `#` on the first line is kept.** -/
theorem keep_of_not_closesLines {a : List Char} (h : ¬ ClosesLines a) {rest : List Char}
    (noHash : '#' ∉ rest) :
    stripComments (a ++ '\n' :: '#' :: rest) = stripComments a ++ '\n' :: '#' :: rest := by
  rw [ClosesLines, CommentScan.after_concat] at h
  rw [stripComments_append, CommentScan.after_concat]
  rcases (CommentScan.start.after a).after_newline with start | ⟨quote, parens, same, inside⟩
  · exact absurd start h
  · obtain ⟨quote', kept⟩ := CommentScan.keep_hash inside true rest
    rw [same, kept, CommentScan.keep_of_hash_not_mem noHash]

/-! ## Lines -/

/-- The trimmed lines that are not blank, the first with the given number. -/
def numberedFrom (n : Nat) (lines : List (List Char)) : List (Nat × List Char) :=
  ((lines.zipIdx n).map fun (line, n) => (n, Text.trim line)).filter
    fun (_, line) => !line.isEmpty

theorem numberedFrom_append (n : Nat) (a b : List (List Char)) :
    numberedFrom n (a ++ b) = numberedFrom n a ++ numberedFrom (n + a.length) b := by
  simp [numberedFrom, List.zipIdx_append]

theorem numberedFrom_cons (n : Nat) (line : List Char) (rest : List (List Char)) :
    numberedFrom n (line :: rest) =
      if (Text.trim line).isEmpty then numberedFrom (n + 1) rest
      else (n, Text.trim line) :: numberedFrom (n + 1) rest := by
  unfold numberedFrom
  rw [List.zipIdx_cons, List.map_cons, List.filter_cons]
  by_cases blank : (Text.trim line).isEmpty
  · simp [blank]
  · simp [blank]

theorem numberedFrom_add (n k : Nat) (lines : List (List Char)) :
    numberedFrom (n + k) lines =
      (numberedFrom n lines).map fun (m, line) => (m + k, line) := by
  induction lines generalizing n with
  | nil => rfl
  | cons line rest ih =>
    rw [numberedFrom_cons, numberedFrom_cons, Nat.add_right_comm, ih]
    split <;> rfl

/-- The numbers of lines do not matter to their texts. -/
theorem texts_numberedFrom (n : Nat) (lines : List (List Char)) :
    (numberedFrom n lines).map Prod.snd =
      (lines.map Text.trim).filter fun line => !line.isEmpty := by
  induction lines generalizing n with
  | nil => rfl
  | cons line rest ih =>
    rw [numberedFrom_cons, List.map_cons, List.filter_cons]
    by_cases blank : (Text.trim line).isEmpty
    · simp [blank, ih]
    · simp [blank, ih]

/-- A carriage return at the end of a line is trimmed. -/
theorem trim_dropReturn (line : List Char) : Text.trim (Text.dropReturn line) = Text.trim line := by
  unfold Text.dropReturn
  split
  · next last =>
    obtain ⟨front, rfl⟩ := List.getLast?_eq_some_iff.mp last
    rw [List.dropLast_concat, Text.trim_blanks]
    intro c hc
    rw [List.mem_singleton.mp hc]
    decide
  · rfl

theorem numberedFrom_map_dropReturn (n : Nat) (lines : List (List Char)) :
    numberedFrom n (lines.map Text.dropReturn) = numberedFrom n lines := by
  unfold numberedFrom
  rw [List.zipIdx_map, List.map_map]
  congr 1
  exact List.map_congr_left fun l _ => by
    simp [Prod.map, trim_dropReturn]

/-- The numbered lines of a text are its pieces between line breaks. -/
theorem numberedLines_eq (cs : List Char) :
    numberedLines cs = numberedFrom 1 (Text.splitAt (· == '\n') cs) := by
  obtain ⟨front, last, same⟩ : ∃ front last, Text.splitAt (· == '\n') cs = front ++ [last] :=
    ⟨_, _, (List.dropLast_concat_getLast (Text.splitAt_ne_nil _ cs)).symm⟩
  have whole : numberedLines cs = numberedFrom 1 (Text.lines cs) := rfl
  rw [whole, Text.lines, same, List.dropLast_concat, List.getLastD_concat, numberedFrom_append,
    numberedFrom_append, numberedFrom_map_dropReturn, List.length_map]
  congr 1
  split
  · next blank =>
    rw [List.isEmpty_iff.mp blank]
    rfl
  · rfl

theorem length_splitAt (cs : List Char) :
    (Text.splitAt (· == '\n') cs).length = cs.count '\n' + 1 := by
  induction cs with
  | nil => rfl
  | cons c rest ih =>
    rw [Text.splitAt]
    split
    · next newline => simp [ih, eq_of_beq newline]
    · next other =>
      obtain ⟨piece, others, same⟩ :=
        List.exists_cons_of_ne_nil (Text.splitAt_ne_nil (· == '\n') rest)
      rw [same] at ih ⊢
      simpa [List.count_cons, other] using ih

/-- The lines of the text below come after those of the text above. -/
theorem numberedLines_append (a b : List Char) :
    numberedLines (a ++ '\n' :: b) = numberedLines a ++
      (numberedLines b).map fun (n, line) => (n + (a.count '\n' + 1), line) := by
  rw [numberedLines_eq, numberedLines_eq a, numberedLines_eq b,
    Text.splitAt_append_separator (by rfl), numberedFrom_append, numberedFrom_add, length_splitAt]

/-! ## Statements -/

/-- A statement some lines further down. -/
def Statement.below (k : Nat) (s : Statement) : Statement :=
  { s with line := s.line + k }

theorem joinLines_below (k : Nat) (current : Option Statement) (lines : List (Nat × List Char)) :
    joinLines (current.map (Statement.below k)) (lines.map fun (n, line) => (n + k, line)) =
      (joinLines current lines).map (Statement.below k) := by
  induction lines generalizing current with
  | nil => cases current <;> rfl
  | cons first rest ih =>
    obtain ⟨n, line⟩ := first
    cases current with
    | none =>
      have later := ih (some ⟨n, line⟩)
      simp only [Option.map, Statement.below] at later
      simp only [List.map_cons, Option.map, joinLines]
      exact later
    | some s =>
      have joined := ih (some { s with text := s.text ++ ' ' :: line })
      have apart := ih (some ⟨n, line⟩)
      simp only [Option.map, Statement.below] at joined apart
      simp only [List.map_cons, Option.map, joinLines, Statement.below]
      split
      · exact joined
      · rw [List.map_cons, ← apart]
        rfl

/-- Complete statements end before lines of which the first continues nothing. -/
theorem joinLines_append {current : Option Statement} {above below : List (Nat × List Char)}
    (complete : ∀ s ∈ joinLines current above, needsContinuation s.text = false)
    (fresh : ∀ l ∈ below.head?, startsWithOperator l.2 = false) :
    joinLines current (above ++ below) = joinLines current above ++ joinLines none below := by
  induction above generalizing current with
  | nil =>
    cases current with
    | none => rfl
    | some s =>
      cases below with
      | nil => rfl
      | cons first rest =>
        obtain ⟨n, line⟩ := first
        have apart : continues s.text line = false := by
          rw [continues, complete s (List.mem_singleton_self s), fresh (n, line) rfl]
          rfl
        simp [joinLines, apart]
  | cons first rest ih =>
    obtain ⟨n, line⟩ := first
    cases current with
    | none => exact ih complete
    | some s =>
      rw [joinLines] at complete
      rw [List.cons_append, joinLines, joinLines]
      split
      · next joined =>
        rw [if_pos joined] at complete
        exact ih complete
      · next apart =>
        rw [if_neg apart] at complete
        rw [ih (List.forall_mem_cons.mp complete).2]
        rfl

theorem startsWithOperator_append {cs : List Char} (h : startsWithOperator cs = true)
    (more : List Char) : startsWithOperator (cs ++ more) = true := by
  obtain ⟨op, mem, front⟩ := List.any_eq_true.mp h
  obtain ⟨tail, rfl⟩ := List.isPrefixOf_iff_prefix.mp front
  exact List.any_eq_true.mpr ⟨op, mem, List.isPrefixOf_iff_prefix.mpr ⟨tail ++ more, by simp⟩⟩

/-- The statement under way is the first one, with more text or without. -/
theorem joinLines_some (s : Statement) (lines : List (Nat × List Char)) :
    ∃ more others, joinLines (some s) lines = { s with text := s.text ++ more } :: others := by
  induction lines generalizing s with
  | nil => exact ⟨[], [], by simp [joinLines]⟩
  | cons first rest ih =>
    obtain ⟨n, line⟩ := first
    rw [joinLines]
    split
    · obtain ⟨more, others, same⟩ := ih { s with text := s.text ++ ' ' :: line }
      exact ⟨' ' :: line ++ more, others, by rw [same]; simp⟩
    · exact ⟨[], joinLines (some ⟨n, line⟩) rest, by rw [List.append_nil]⟩

/-- The first line starts with an operator only if the first statement does. -/
theorem fresh_of_joinLines {lines : List (Nat × List Char)}
    (h : ∀ s ∈ joinLines none lines, startsWithOperator s.text = false) :
    ∀ l ∈ lines.head?, startsWithOperator l.2 = false := by
  cases lines with
  | nil => exact fun _ none => by cases none
  | cons first rest =>
    rintro _ ⟨⟩
    obtain ⟨more, others, same⟩ := joinLines_some ⟨first.1, first.2⟩ rest
    have start := h _ (by rw [joinLines, same]; exact List.mem_cons_self ..)
    rw [Bool.eq_false_iff] at start ⊢
    exact fun operator => start (startsWithOperator_append operator more)

/-- **The statements of a text below another are its own, further down.** -/
theorem statements_append {a b : List Char}
    (complete : ∀ s ∈ statements a, needsContinuation s.text = false)
    (fresh : ∀ s ∈ statements b, startsWithOperator s.text = false) :
    statements (a ++ '\n' :: b) =
      statements a ++ (statements b).map (.below (a.count '\n' + 1)) := by
  have below := joinLines_below (a.count '\n' + 1) none (numberedLines b)
  unfold statements at complete ⊢
  rw [numberedLines_append, joinLines_append complete, ← below]
  · rfl
  · intro l hl
    rw [List.head?_map] at hl
    obtain ⟨l', first, rfl⟩ := Option.map_eq_some_iff.mp hl
    exact fresh_of_joinLines fresh l' first

/-- Statements have no blanks at their ends. -/
theorem tidy_of_joinLines {current : Option Statement} {lines : List (Nat × List Char)}
    (first : ∀ s ∈ current, Text.Tidy s.text) (h : ∀ l ∈ lines, Text.Tidy l.2) :
    ∀ s ∈ joinLines current lines, Text.Tidy s.text := by
  induction lines generalizing current with
  | nil =>
    cases current with
    | none => exact fun _ none => by cases none
    | some s => exact fun t ht => first t (by rw [List.mem_singleton.mp ht]; rfl)
  | cons line rest ih =>
    obtain ⟨n, line⟩ := line
    obtain ⟨tidy, later⟩ := List.forall_mem_cons.mp h
    have fresh : ∀ s ∈ some (Statement.mk n line), Text.Tidy s.text := by
      rintro _ ⟨⟩
      exact tidy
    cases current with
    | none => exact ih fresh later
    | some s =>
      rw [joinLines]
      split
      · refine ih ?_ later
        rintro _ ⟨⟩
        have joined := (first s rfl).append tidy [' ']
        rwa [List.append_assoc] at joined
      · exact List.forall_mem_cons.mpr ⟨first s rfl, ih fresh later⟩

theorem tidy_of_numberedLines {cs : List Char} : ∀ l ∈ numberedLines cs, Text.Tidy l.2 := by
  intro l hl
  obtain ⟨mem, some⟩ := List.mem_filter.mp hl
  obtain ⟨l', -, rfl⟩ := List.mem_map.mp mem
  exact Text.tidy_trim fun none => by simp [none] at some

theorem tidy_of_statements {cs : List Char} : ∀ s ∈ statements cs, Text.Tidy s.text :=
  tidy_of_joinLines (fun _ none => by cases none) tidy_of_numberedLines

end CapabilityPipeline.Source
