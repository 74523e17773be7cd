import CapabilityPipeline.Proofs.Program.Composition
import CapabilityPipeline.Proofs.Program.Accepted
import CapabilityPipeline.Proofs.Source.Concatenation

/-!
# Statements on several lines

A statement may be broken into lines behind an operator or in front of one. Blank lines and lines
with a comment only may stand between its lines, and above and below every statement. A comment may
end each line. None of this is left when comments are stripped and lines are joined: the statements
are found with a space in place of each line break.

Results:

* `IsRemark`, `IsBreak`: what may stand at the end of a line, and between two lines of a statement.
* `Spreads`: a statement on several lines, and on one.
* `Spreads.statementTexts_eq`: a statement on several lines is read as one statement.
* `Sheet`: statements below each other.
* `Sheet.statementTexts_eq`: the statements of a sheet are the statements it was made of.
-/

namespace CapabilityPipeline

open Source Text

/-! ## Comments and blank lines -/

/-- Nothing, or a comment up to the end of its line. -/
def IsComment (cs : List Char) : Prop :=
  cs = [] ∨ ∃ text, cs = '#' :: text ∧ '\n' ∉ text

/-- What may follow on a line: blanks, and behind a blank a comment. -/
def IsRemark (cs : List Char) : Prop :=
  ∃ blanks comment, Padding blanks ∧ IsComment comment ∧ (blanks = [] → comment = []) ∧
    cs = blanks ++ comment

/-- A blank line, or one with a comment only. -/
def IsIdle (cs : List Char) : Prop :=
  ∃ blanks comment, Padding blanks ∧ IsComment comment ∧ cs = blanks ++ comment

/-- What may stand in front of a line: idle lines, and then an indentation. -/
inductive Lead : List Char → Prop
  | indent {blanks : List Char} (h : Padding blanks) : Lead blanks
  | idle {line rest : List Char} (hl : IsIdle line) (h : Lead rest) : Lead (line ++ '\n' :: rest)

/-- A line break within a statement, with what may stand around it. -/
def IsBreak (cs : List Char) : Prop :=
  ∃ remark lead, IsRemark remark ∧ Lead lead ∧ cs = remark ++ '\n' :: lead

/-- What may stand beside an operator: blanks or a line break. -/
def IsSpacing (cs : List Char) : Prop := Padding cs ∨ IsBreak cs

/-- A line ends here, or the text does. -/
def EndsLine (cs : List Char) : Prop := cs = [] ∨ ∃ rest, cs = '\n' :: rest

theorem isRemark_nil : IsRemark [] :=
  ⟨[], [], padding_nil, .inl rfl, fun _ => rfl, rfl⟩

/-! ## Stripping -/

/-- The scanner stands after a line, or after the text, as it stood before. -/
theorem keep_endsLine {tail : List Char} (h : EndsLine tail) (afterBlank : Bool) :
    CommentScan.keep ⟨false, .outside, 0, afterBlank⟩ tail = stripComments tail := by
  rcases h with rfl | ⟨rest, rfl⟩
  · rfl
  · rw [stripComments, CommentScan.keep, CommentScan.keep]
    rfl

theorem keep_inComment {text : List Char} (h : '\n' ∉ text) {tail : List Char}
    (ends : EndsLine tail) (s : CommentScan) (inside : s.inComment = true) :
    s.keep (text ++ tail) = stripComments tail := by
  obtain ⟨nothing, same⟩ := CommentScan.keep_comment inside h
  rw [CommentScan.keep_append, nothing, same, List.nil_append]
  rcases ends with rfl | ⟨rest, rfl⟩
  · rfl
  · rw [stripComments, CommentScan.keep, CommentScan.keep]
    simp [CommentScan.step, inside, CommentScan.start, Quote.next, Text.isBlank]

theorem strip_comment {comment : List Char} (h : IsComment comment) {tail : List Char}
    (ends : EndsLine tail) : stripComments (comment ++ tail) = stripComments tail := by
  rcases h with rfl | ⟨text, rfl, oneLine⟩
  · rfl
  · have entered := keep_inComment oneLine ends { CommentScan.start with inComment := true } rfl
    rw [← entered]
    rfl

/-- Behind blanks the scanner stands as at the start of a line. -/
theorem keep_padding {blanks : List Char} (h : Padding blanks) {afterBlank : Bool}
    (blank : afterBlank = true ∨ blanks ≠ []) (rest : List Char) :
    CommentScan.keep ⟨false, .outside, 0, afterBlank⟩ (blanks ++ rest) =
      blanks ++ stripComments rest := by
  induction blanks generalizing afterBlank with
  | nil =>
    obtain rfl : afterBlank = true := blank.resolve_right (fun some => some rfl)
    rfl
  | cons c blanks ih =>
    obtain ⟨⟨isBlank, newline⟩, later⟩ := List.forall_mem_cons.mp h
    have other (d : Char) (hd : Text.isBlank d = false) : c ≠ d := by
      rintro rfl
      rw [isBlank] at hd
      cases hd
    have parens : CommentScan.parensAfter c 0 = 0 := by
      rw [CommentScan.parensAfter, if_neg (other '(' rfl), if_neg (other ')' rfl)]
    rw [List.cons_append, CommentScan.keep_outside newline (other '#' rfl),
      next_outside (other '"' rfl), parens, isBlank, ih later (.inl rfl)]
    rfl

theorem strip_padding {blanks : List Char} (h : Padding blanks) (rest : List Char) :
    stripComments (blanks ++ rest) = blanks ++ stripComments rest :=
  keep_padding h (.inl rfl) rest

/-- What remains of a line: its text and the blanks behind it. -/
theorem strip_line {text : List Char} (balanced : Balanced (fun _ => true) text)
    {remark : List Char} (hr : IsRemark remark) : ∃ blanks, Padding blanks ∧
      ∀ tail, EndsLine tail →
        stripComments (text ++ remark ++ tail) = text ++ blanks ++ stripComments tail := by
  obtain ⟨blanks, comment, hb, hc, behind, rfl⟩ := hr
  refine ⟨blanks, hb, fun tail ends => ?_⟩
  obtain ⟨afterBlank, kept⟩ := balanced.keep_eq 0 true (blanks ++ comment ++ tail)
  rw [stripComments, CommentScan.start, List.append_assoc, kept, List.append_assoc,
    List.append_assoc]
  congr 1
  by_cases none : blanks = []
  · rw [none, behind none]
    exact keep_endsLine ends afterBlank
  · rw [keep_padding hb (.inr none), strip_comment hc ends]

/-- What remains of an idle line: blanks. -/
theorem strip_idle {line : List Char} (h : IsIdle line) : ∃ blanks, Padding blanks ∧
    ∀ tail, EndsLine tail → stripComments (line ++ tail) = blanks ++ stripComments tail := by
  obtain ⟨blanks, comment, hb, hc, rfl⟩ := h
  refine ⟨blanks, hb, fun tail ends => ?_⟩
  rw [List.append_assoc, strip_padding hb, strip_comment hc ends]

/-- The comments of any text below are stripped as if it stood alone. -/
def LeavesAllComments (cs : List Char) : Prop := ∀ rest, LeavesComments cs rest

/-- What is left of one line, wherever it ends. -/
theorem LeavesAllComments.of_strip {raw text : List Char}
    (h : ∀ tail, EndsLine tail → stripComments (raw ++ tail) = text ++ stripComments tail) :
    stripComments raw = text ∧ LeavesAllComments raw := by
  have alone : stripComments raw = text := by
    have last := h [] (.inl rfl)
    rwa [List.append_nil, show stripComments [] = [] from rfl, List.append_nil] at last
  refine ⟨alone, fun rest => ?_⟩
  rw [LeavesComments, h _ (.inr ⟨rest, rfl⟩), alone]
  congr 1

theorem LeavesAllComments.below {a b : List Char} (ha : LeavesAllComments a)
    (hb : LeavesAllComments b) : LeavesAllComments (a ++ '\n' :: b) := by
  intro rest
  rw [LeavesComments, ha b, List.append_assoc, List.cons_append, ha (b ++ '\n' :: rest), hb rest]
  simp

theorem LeavesAllComments.behind_lead {lead raw : List Char} (hl : Lead lead)
    (h : LeavesAllComments raw) : LeavesAllComments (lead ++ raw) := by
  induction hl with
  | indent blanks =>
    intro rest
    rw [LeavesComments, List.append_assoc, strip_padding blanks, h rest, strip_padding blanks,
      List.append_assoc]
  | idle line _ ih =>
    obtain ⟨blanks, -, strip⟩ := strip_idle line
    rw [List.append_assoc, List.cons_append]
    exact (LeavesAllComments.of_strip strip).2.below ih

/-! ## Lines -/

/-- The lines of a text without comments, trimmed, those left out that are blank. -/
def lineTexts (cs : List Char) : List (List Char) :=
  ((Text.splitAt (· == '\n') (stripComments cs)).map trim).filter fun line => !line.isEmpty

theorem texts_numberedLines (cs : List Char) :
    (numberedLines (stripComments cs)).map Prod.snd = lineTexts cs := by
  rw [numberedLines_eq, texts_numberedFrom]
  rfl

theorem lineTexts_append {a : List Char} (h : LeavesAllComments a) (b : List Char) :
    lineTexts (a ++ '\n' :: b) = lineTexts a ++ lineTexts b := by
  unfold lineTexts
  rw [h b, Text.splitAt_append_separator (by rfl), List.map_append, List.filter_append]

theorem lineTexts_padding {blanks : List Char} (h : Padding blanks) (cs : List Char) :
    lineTexts (blanks ++ cs) = lineTexts cs := by
  have oneLine : ∀ c ∈ blanks, (c == '\n') = false := fun c hc =>
    beq_eq_false_iff_ne.mpr (h c hc).2
  unfold lineTexts
  rw [strip_padding h]
  generalize stripComments cs = text
  -- the blanks are in front of the first piece only
  obtain ⟨piece, others, pieces, prefixed⟩ : ∃ piece others,
      Text.splitAt (· == '\n') text = piece :: others ∧
        Text.splitAt (· == '\n') (blanks ++ text) = (blanks ++ piece) :: others := by
    clear h
    induction blanks with
    | nil =>
      obtain ⟨piece, others, pieces⟩ := List.exists_cons_of_ne_nil (Text.splitAt_ne_nil _ text)
      exact ⟨piece, others, pieces, pieces⟩
    | cons c blanks ih =>
      obtain ⟨first, later⟩ := List.forall_mem_cons.mp oneLine
      obtain ⟨piece, others, pieces, prefixed⟩ := ih later
      refine ⟨piece, others, pieces, ?_⟩
      rw [List.cons_append, Text.splitAt, prefixed, first]
      rfl
  have trimmed : trim (blanks ++ piece) = trim piece := by
    rw [trim, trimStart_blanks h.blanks, trim]
  rw [pieces, prefixed, List.map_cons, List.map_cons, trimmed]

/-- A line with a text on it. -/
theorem lineTexts_line {text : List Char} (balanced : Balanced (fun _ => true) text)
    (tidy : Tidy text) {remark : List Char} (hr : IsRemark remark) :
    lineTexts (text ++ remark) = [text] ∧ LeavesAllComments (text ++ remark) := by
  obtain ⟨blanks, hb, strip⟩ := strip_line balanced hr
  obtain ⟨alone, leaves⟩ := LeavesAllComments.of_strip strip
  have oneLine : ∀ c ∈ text ++ blanks, (c == '\n') = false := by
    intro c hc
    rw [beq_eq_false_iff_ne]
    rintro rfl
    rcases List.mem_append.mp hc with inside | behind
    · exact balanced.newline_not_mem inside
    · exact hb.newline_not_mem behind
  have trimmed : trim (text ++ blanks) = text := by
    have between := tidy.trim_between blanks_nil hb.blanks
    rwa [List.nil_append] at between
  refine ⟨?_, leaves⟩
  unfold lineTexts
  rw [alone, Text.splitAt_of_not_mem oneLine, List.map_singleton, trimmed]
  simp [tidy.ne_nil]

theorem lineTexts_blanks {raw blanks : List Char} (hb : Padding blanks)
    (strip : stripComments raw = blanks) : lineTexts raw = [] := by
  have nothing : lineTexts (blanks ++ []) = [] := (lineTexts_padding hb []).trans rfl
  rw [List.append_nil, lineTexts] at nothing
  have again := strip_padding hb []
  rw [List.append_nil, show stripComments [] = [] from rfl, List.append_nil] at again
  rw [lineTexts, strip, ← again]
  exact nothing

/-- Idle lines and an indentation add no line. -/
theorem lineTexts_lead {lead : List Char} (h : Lead lead) (cs : List Char) :
    lineTexts (lead ++ cs) = lineTexts cs := by
  induction h with
  | indent blanks => exact lineTexts_padding blanks cs
  | idle line _ ih =>
    obtain ⟨blanks, hb, strip⟩ := strip_idle line
    obtain ⟨alone, leaves⟩ := LeavesAllComments.of_strip strip
    rw [List.append_assoc, List.cons_append, lineTexts_append leaves, ih,
      lineTexts_blanks hb alone, List.nil_append]

/-! ## Statements -/

/-- The statements that lines are joined to, of which one may be under way. -/
def joinTexts : Option (List Char) → List (List Char) → List (List Char)
  | none, [] => []
  | some current, [] => [current]
  | none, line :: rest => joinTexts (some line) rest
  | some current, line :: rest =>
    if continues current line then joinTexts (some (current ++ ' ' :: line)) rest
    else current :: joinTexts (some line) rest

/-- The numbers of lines do not matter to the texts of statements. -/
theorem texts_joinLines (current : Option Statement) (lines : List (Nat × List Char)) :
    (joinLines current lines).map Statement.text =
      joinTexts (current.map Statement.text) (lines.map Prod.snd) := by
  induction lines generalizing current with
  | nil => cases current <;> rfl
  | cons first rest ih =>
    obtain ⟨n, line⟩ := first
    cases current with
    | none => exact ih (some ⟨n, line⟩)
    | some s =>
      rw [joinLines, List.map_cons, Option.map_some, joinTexts]
      split
      · exact ih _
      · exact congrArg (s.text :: ·) (ih (some ⟨n, line⟩))

/-- The texts of the statements of a program text. -/
def statementTexts (cs : List Char) : List (List Char) :=
  (statements (stripComments cs)).map Statement.text

theorem statementTexts_eq (cs : List Char) :
    statementTexts cs = joinTexts none (lineTexts cs) := by
  rw [statementTexts, statements, texts_joinLines, texts_numberedLines]
  rfl

/-- Complete statements end above a text that continues nothing. -/
theorem statementTexts_append {a b : List Char} (comments : LeavesAllComments a)
    (complete : ∀ text ∈ statementTexts a, needsContinuation text = false)
    (fresh : ∀ text ∈ statementTexts b, startsWithOperator text = false) :
    statementTexts (a ++ '\n' :: b) = statementTexts a ++ statementTexts b := by
  have split := statements_append (fun s hs => complete _ (List.mem_map_of_mem hs))
    fun s hs => fresh _ (List.mem_map_of_mem hs)
  unfold statementTexts
  rw [comments b, split, List.map_append, List.map_map]
  rfl

/-! ## Statements on several lines -/

/-- The first text is a statement on several lines, the second the same on one line. -/
inductive Spreads : List Char → List Char → Prop
  | line {text : List Char} (balanced : Balanced (fun _ => true) text) (tidy : Tidy text) :
      Spreads text text
  | broken {line remark lead raw text : List Char} (balanced : Balanced (fun _ => true) line)
      (tidy : Tidy line) (hr : IsRemark remark) (hl : Lead lead)
      (joins : endsWithOperator line = true ∨ startsWithOperator text = true)
      (h : Spreads raw text) :
      Spreads (line ++ (remark ++ '\n' :: (lead ++ raw))) (line ++ ' ' :: text)

/-- A text in front of a space starts with an operator if it does so with what follows. -/
theorem startsWithOperator_of_append_space {line rest : List Char}
    (h : startsWithOperator (line ++ ' ' :: rest) = true) (nonempty : line ≠ []) :
    startsWithOperator line = true := by
  obtain ⟨op, mem, front⟩ := List.any_eq_true.mp h
  obtain ⟨tail, same⟩ := List.isPrefixOf_iff_prefix.mp front
  refine List.any_eq_true.mpr ⟨op, mem, List.isPrefixOf_iff_prefix.mpr ?_⟩
  -- no operator has a space in it
  match line, nonempty with
  | [c], _ =>
    cases op <;> cases same
    exact ⟨[], rfl⟩
  | c :: d :: others, _ => cases op <;> cases same <;> exact ⟨_, rfl⟩

theorem endsWithOperator_append {line : List Char} (h : endsWithOperator line = true)
    (front : List Char) : endsWithOperator (front ++ line) = true := by
  obtain ⟨op, mem, back⟩ := List.any_eq_true.mp h
  exact List.any_eq_true.mpr ⟨op, mem, List.isSuffixOf_iff_suffix.mpr
    ((List.isSuffixOf_iff_suffix.mp back).trans (List.suffix_append front line))⟩

namespace Spreads

variable {raw text remark : List Char}

theorem lineTexts_broken {line lead rest : List Char} (balanced : Balanced (fun _ => true) line)
    (tidy : Tidy line) (hr : IsRemark remark) (hl : Lead lead) :
    lineTexts (line ++ (remark ++ '\n' :: (lead ++ raw)) ++ rest) =
      line :: lineTexts (raw ++ rest) := by
  obtain ⟨single, leaves⟩ := lineTexts_line balanced tidy hr
  have shape : line ++ (remark ++ '\n' :: (lead ++ raw)) ++ rest =
      line ++ remark ++ '\n' :: (lead ++ (raw ++ rest)) := by
    simp
  rw [shape, lineTexts_append leaves, single, lineTexts_lead hl]
  rfl

/-- A statement under way goes on with all lines of a statement that it joins. -/
theorem joinTexts_some (h : Spreads raw text) (hr : IsRemark remark) {current : List Char}
    (tidy : Tidy current)
    (joins : endsWithOperator current = true ∨ startsWithOperator text = true) :
    joinTexts (some current) (lineTexts (raw ++ remark)) = [current ++ ' ' :: text] := by
  have needs {current : List Char} (tidy : Tidy current)
      (h : endsWithOperator current = true) : needsContinuation current = true := by
    unfold needsContinuation
    dsimp only
    rw [tidy.trimEnd_eq, h]
    rfl
  induction h generalizing current with
  | line balanced first =>
    have goesOn : ∀ line, endsWithOperator current = true ∨ startsWithOperator line = true →
        continues current line = true := by
      rintro line (last | next)
      · rw [continues, needs tidy last]
        rfl
      · rw [continues, next, Bool.or_true]
    rw [(lineTexts_line balanced first hr).1, joinTexts, if_pos (goesOn _ joins), joinTexts]
  | @broken line _ lead _ text balanced first hr' hl inner _ ih =>
    have goesOn : continues current line = true := by
      rcases joins with last | next
      · rw [continues, needs tidy last]
        rfl
      · rw [continues, startsWithOperator_of_append_space next first.ne_nil, Bool.or_true]
    have longer : Tidy (current ++ ' ' :: line) := by
      have joined := tidy.append first [' ']
      rwa [List.append_assoc] at joined
    have later := ih longer (inner.imp_left fun last => by
      have behind := endsWithOperator_append last (current ++ [' '])
      rwa [List.append_assoc] at behind)
    rw [lineTexts_broken balanced first hr' hl, joinTexts, if_pos goesOn, later]
    simp

/-- **A statement on several lines is read as one statement.** -/
theorem statementTexts_eq (h : Spreads raw text) (hr : IsRemark remark) :
    statementTexts (raw ++ remark) = [text] := by
  rw [CapabilityPipeline.statementTexts_eq]
  cases h with
  | line balanced tidy =>
    rw [(lineTexts_line balanced tidy hr).1]
    rfl
  | broken balanced tidy hr' hl joins inner =>
    rw [lineTexts_broken balanced tidy hr' hl, joinTexts]
    exact inner.joinTexts_some hr tidy joins

theorem leavesAllComments (h : Spreads raw text) (hr : IsRemark remark) :
    LeavesAllComments (raw ++ remark) := by
  induction h with
  | line balanced tidy => exact (lineTexts_line balanced tidy hr).2
  | @broken line middle lead raw _ balanced tidy hr' hl _ _ ih =>
    have shape : line ++ (middle ++ '\n' :: (lead ++ raw)) ++ remark =
        line ++ middle ++ '\n' :: (lead ++ (raw ++ remark)) := by
      simp
    rw [shape]
    exact (lineTexts_line balanced tidy hr').2.below (.behind_lead hl ih)

end Spreads

/-! ## Sheets -/

/-- Statements below each other, each with what may stand above it and behind it, and idle lines
below the last one. -/
inductive Sheet : List (List Char) → List Char → Prop
  | done {lead comment : List Char} (hl : Lead lead) (hc : IsComment comment) :
      Sheet [] (lead ++ comment)
  | last {lead remark : List Char} (raw : List Char) (hl : Lead lead) (hr : IsRemark remark) :
      Sheet [raw] (lead ++ (raw ++ remark))
  | cons {lead remark rest : List Char} {raws : List (List Char)} (raw : List Char)
      (hl : Lead lead) (hr : IsRemark remark) (h : Sheet raws rest) :
      Sheet (raw :: raws) (lead ++ (raw ++ remark ++ '\n' :: rest))

theorem statementTexts_lead {lead : List Char} (h : Lead lead) (cs : List Char) :
    statementTexts (lead ++ cs) = statementTexts cs := by
  rw [statementTexts_eq, lineTexts_lead h, statementTexts_eq]

/-- **The statements of a sheet are the statements it was made of**, each on one line. -/
theorem Sheet.statementTexts_eq {raws texts : List (List Char)} {cs : List Char}
    (h : Sheet raws cs) (spreads : List.Forall₂ Spreads raws texts)
    (isolated : ∀ text ∈ texts, Isolated text) : statementTexts cs = texts := by
  induction h generalizing texts with
  | done hl hc =>
    cases spreads
    have nothing := strip_comment hc (.inl rfl)
    rw [List.append_nil] at nothing
    rw [statementTexts_lead hl, statementTexts, nothing]
    rfl
  | last raw hl hr =>
    obtain ⟨text, _, first, none, rfl⟩ := List.forall₂_cons_left_iff.mp spreads
    cases none
    rw [statementTexts_lead hl, first.statementTexts_eq hr]
  | cons raw hl hr _ ih =>
    obtain ⟨text, others, first, later, rfl⟩ := List.forall₂_cons_left_iff.mp spreads
    obtain ⟨alone, apart⟩ := List.forall_mem_cons.mp isolated
    have below := ih later apart
    have above := first.statementTexts_eq hr
    rw [statementTexts_lead hl, statementTexts_append (first.leavesAllComments hr), above, below]
    · rfl
    · rw [above]
      exact List.forall_mem_singleton.mpr alone.below
    · rw [below]
      exact fun text mem => (apart text mem).above

end CapabilityPipeline
