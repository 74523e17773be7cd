import CapabilityPipeline.Proofs.Source.FirstLines

/-!
# What is left without comments

A comment is cut from the end of its line, and the comment scanner goes on as if it had never been
there. So the scanner finds no comment in what it has left, and where a line was cut is seen from
what is left above it.

Results:

* `CommentScan.Opens`, `OpensComment`: a scanner, or the scanner behind a text, at which a `#` starts
  a comment.
* `CommentScan.Resumes.step`, `CommentScan.Resumes.keep_eq`: what is cut off leaves no trace, for one
  character and for a text.
* `CutLines`: lines of which some are cut where a comment starts.
* `cutLines_keep`: the lines that the scanner leaves.
* `stripComments_cuts`: comments are cut from the ends of lines, and none is left.
-/

namespace CapabilityPipeline.Source

/-! ## Where comments start -/

namespace CommentScan

variable {s t : CommentScan} {c : Char}

/-- A `#` starts a comment here: outside literals and targets, behind a blank or at the start. -/
structure Opens (s : CommentScan) : Prop where
  literal : s.quote = .outside
  target : s.parens = 0
  blank : s.afterBlank = true

theorem Opens.dropped (h : s.Opens) : (s.step '#').1 = false := by
  unfold step
  split
  · rfl
  · simp [h.literal, h.target, h.blank]

theorem step_opens (outside : s.inComment = false) (h : s.Opens) :
    s.step '#' = (false, { s with inComment := true }) := by
  simp [step, outside, h.literal, h.target, h.blank]

/-- Outside comments every character is kept that starts none. -/
theorem step_kept (outside : s.inComment = false) (h : ¬ (c = '#' ∧ s.Opens)) :
    (s.step c).1 = true ∧ (s.step c).2.inComment = false := by
  have opens : s.quote = .outside → ¬ (c = '#' ∧ s.parens = 0 ∧ s.afterBlank = true) := by
    intro literal hash
    exact h ⟨hash.1, literal, hash.2.1, hash.2.2⟩
  unfold step
  rw [if_neg (by simp [outside])]
  split
  · next literal =>
    rw [if_neg (opens literal)]
    exact ⟨rfl, rfl⟩
  · exact ⟨rfl, rfl⟩

/-- Behind a character that is kept the scanner knows whether it was a blank. -/
theorem afterBlank_step (kept : (s.step c).1 = true) :
    (s.step c).2.afterBlank = Text.isBlank c := by
  unfold step at kept ⊢
  split
  · split
    · next newline =>
      subst newline
      rfl
    · simp_all
  · split
    · split
      · simp_all
      · rfl
    · rfl

/-! ## No trace -/

/-- A scanner goes on like another that is in no comment: it stands where the other stands, or in a
comment that it has found there. -/
def Resumes (t s : CommentScan) : Prop :=
  t.inComment = false ∧ (s = t ∨ s = { t with inComment := true } ∧ t.Opens)

/-- **One character leaves no trace if it is dropped**, and otherwise it is kept by both scanners. -/
theorem Resumes.step (h : Resumes t s) (c : Char) :
    (s.step c).1 = true ∧ (t.step c).1 = true ∧ Resumes (t.step c).2 (s.step c).2 ∨
      (s.step c).1 = false ∧ Resumes t (s.step c).2 := by
  obtain ⟨outside, rfl | ⟨rfl, opens⟩⟩ := h
  · by_cases hash : c = '#' ∧ s.Opens
    · obtain ⟨rfl, opens⟩ := hash
      rw [step_opens outside opens]
      exact .inr ⟨rfl, outside, .inr ⟨rfl, opens⟩⟩
    · obtain ⟨kept, outside'⟩ := step_kept outside hash
      exact .inl ⟨kept, kept, outside', .inl rfl⟩
  · by_cases newline : c = '\n'
    · -- the line break ends the comment, and without it would have led to the same place
      subst newline
      have same : t.step '\n' = (true, start) := by
        simp [CommentScan.step, outside, opens.literal, opens.target, start, Quote.next,
          Text.isBlank]
      rw [same]
      exact .inl ⟨rfl, rfl, rfl, .inl rfl⟩
    · have dropped : CommentScan.step { t with inComment := true } c =
          (false, { t with inComment := true }) := by
        simp [CommentScan.step, newline]
      rw [dropped]
      exact .inr ⟨rfl, outside, .inr ⟨rfl, opens⟩⟩

/-- **What is cut off leaves no trace**: the scanner keeps all that was left, and behind it stands
where it stood behind the whole text. -/
theorem Resumes.keep_eq (h : Resumes t s) (cs : List Char) :
    t.keep (s.keep cs) = s.keep cs ∧ Resumes (t.after (s.keep cs)) (s.after cs) := by
  induction cs generalizing s t with
  | nil => exact ⟨rfl, h⟩
  | cons c rest ih =>
    rw [keep]
    rcases h.step c with ⟨kept, kept', later⟩ | ⟨dropped, later⟩
    · obtain ⟨same, ends⟩ := ih later
      simp only [kept, if_true]
      rw [keep]
      simp only [kept', if_true, same, true_and]
      exact ends
    · simp only [dropped, Bool.false_eq_true, if_false]
      exact ih later

theorem Resumes.refl (outside : s.inComment = false) : Resumes s s := ⟨outside, .inl rfl⟩

theorem resumes_start : Resumes start start := .refl rfl

theorem Resumes.eq_of_outside (h : Resumes t s) (outside : s.inComment = false) : s = t := by
  obtain ⟨-, same | ⟨rfl, -⟩⟩ := h
  · exact same
  · cases outside

/-- Behind a line break both scanners stand at the same place, outside comments. -/
theorem Resumes.step_newline (h : Resumes t s) :
    s.step '\n' = t.step '\n' ∧ (t.step '\n').2.inComment = false := by
  have outside (s : CommentScan) : (s.step '\n').2.inComment = false := by
    rcases s.after_newline with same | ⟨_, _, same, -⟩ <;> simp [same, start]
  refine ⟨?_, outside t⟩
  rcases h.step '\n' with ⟨kept, kept', later⟩ | ⟨dropped, -⟩
  · exact Prod.ext (kept.trans kept'.symm) (later.eq_of_outside (outside s))
  · rw [CommentScan.step_newline] at dropped
    cases dropped

theorem length_keep_le (s : CommentScan) (cs : List Char) : (s.keep cs).length ≤ cs.length := by
  induction cs generalizing s with
  | nil => exact Nat.le_refl 0
  | cons c rest ih =>
    have later := ih (s.step c).2
    rw [keep]
    simp only
    split
    · simpa using later
    · rw [List.length_cons]
      omega

end CommentScan

/-- A `#` behind this text, of which no comment was cut, starts a comment. -/
def OpensComment (above : List Char) : Prop := (CommentScan.start.after above).Opens

/-! ## Lines -/

/-- Nothing, or a text that ends with a blank. -/
def BehindBlank (left : List Char) : Prop :=
  left = [] ∨ ∃ front c, left = front ++ [c] ∧ Text.isBlank c = true

/-- What is left of a line below some text: all of it, or what stands before a comment. -/
def CutOff (above left line : List Char) : Prop :=
  left = line ∨ ∃ comment, line = left ++ '#' :: comment ∧ BehindBlank left ∧
    OpensComment (above ++ left)

/-- What is left of lines below some text, one by one. -/
inductive CutLines : List Char → List (List Char) → List (List Char) → Prop
  | nil {above : List Char} : CutLines above [] []
  | cons {above left line : List Char} {lefts lines : List (List Char)}
      (first : CutOff above left line) (later : CutLines (above ++ left ++ ['\n']) lefts lines) :
      CutLines above (left :: lefts) (line :: lines)

namespace CommentScan

variable {s : CommentScan}

/-- What is left of one line: all of it, or what stands before the first comment. -/
theorem keep_line (outside : s.inComment = false) {line : List Char} (h : '\n' ∉ line) :
    s.keep line = line ∨ ∃ comment, line = s.keep line ++ '#' :: comment ∧
      BehindBlank (s.keep line) ∧ (s.after (s.keep line)).Opens := by
  induction line generalizing s with
  | nil => exact .inl rfl
  | cons c rest ih =>
    obtain ⟨-, later⟩ := not_or.mp (mt List.mem_cons.mpr h)
    rw [keep]
    by_cases hash : c = '#' ∧ s.Opens
    · obtain ⟨rfl, opens⟩ := hash
      rw [step_opens outside opens]
      simp only [Bool.false_eq_true, if_false]
      rw [(keep_comment rfl later).1]
      exact .inr ⟨rest, rfl, .inl rfl, opens⟩
    · obtain ⟨kept, outside'⟩ := step_kept outside hash
      simp only [kept, if_true]
      rcases ih outside' later with whole | ⟨comment, cut, blank, opens⟩
      · exact .inl (by rw [whole])
      · refine .inr ⟨comment, by rw [List.cons_append, ← cut], .inr ?_, opens⟩
        rcases blank with none | ⟨front, d, same, blank⟩
        · rw [none] at opens ⊢
          refine ⟨[], c, rfl, ?_⟩
          rw [← afterBlank_step kept]
          exact opens.blank
        · exact ⟨c :: front, d, by rw [same, List.cons_append], blank⟩

/-- **The lines that the scanner leaves**, below a text behind which it is in no comment. -/
theorem cutLines_keep (above cs : List Char) (outside : (start.after above).inComment = false) :
    CutLines above (physicalLines ((start.after above).keep cs)) (physicalLines cs) := by
  -- by induction on the lines of the text
  induction lines : physicalLines cs generalizing above cs with
  | nil => exact absurd lines (Text.splitAt_ne_nil _ cs)
  | cons first others ih =>
    have cutOff {line : List Char} (h : '\n' ∉ line) :
        CutOff above ((start.after above).keep line) line := by
      refine (keep_line outside h).imp_right fun ⟨comment, cut, blank, opens⟩ => ?_
      exact ⟨comment, cut, blank, by rwa [OpensComment, after_append]⟩
    have noBreak {line : List Char} (h : '\n' ∉ line) : '\n' ∉ (start.after above).keep line := by
      rwa [← List.count_eq_zero, count_keep, List.count_eq_zero]
    by_cases h : '\n' ∈ cs
    · obtain ⟨line, rest, rfl, oneLine⟩ := List.eq_append_cons_of_mem h
      rw [physicalLines_append oneLine, List.cons.injEq] at lines
      obtain ⟨rfl, rfl⟩ := lines
      obtain ⟨same, outside'⟩ := ((Resumes.refl outside).keep_eq line).2.step_newline
      rw [← after_append, ← after_concat] at outside'
      rw [keep_append, keep, same, ← after_append]
      simp only [step_newline, if_true]
      rw [← after_concat, physicalLines_append (noBreak oneLine)]
      exact .cons (cutOff oneLine) (ih _ _ outside' rfl)
    · rw [physicalLines_of_not_mem h] at lines
      cases lines
      rw [physicalLines_of_not_mem (noBreak h)]
      exact .cons (cutOff h) .nil

end CommentScan

/-! ## Texts -/

/-- **Comments are cut from the ends of lines, and none is left.** A text has as many line breaks as
before. Each line is left as it is or cut before a `#` that stands at its start or behind a blank,
where a comment starts. No `#` that is left starts a comment, and so nothing is cut when comments
are stripped again. -/
theorem stripComments_cuts (cs : List Char) :
    (stripComments cs).count '\n' = cs.count '\n' ∧
      CutLines [] (physicalLines (stripComments cs)) (physicalLines cs) ∧
      (∀ above below, stripComments cs = above ++ '#' :: below → ¬ OpensComment above) ∧
      stripComments (stripComments cs) = stripComments cs := by
  have again := (CommentScan.resumes_start.keep_eq cs).1
  refine ⟨count_stripComments cs, CommentScan.cutLines_keep [] cs rfl, ?_, again⟩
  intro above below same opens
  -- the `#` would be cut off, and nothing is
  have size := congrArg List.length again
  rw [← stripComments, ← stripComments, same, stripComments, CommentScan.keep_append,
    CommentScan.keep] at size
  have front := CommentScan.start.length_keep_le above
  have back := CommentScan.length_keep_le
    ((CommentScan.start.after above).step '#').2 below
  simp only [opens.dropped, Bool.false_eq_true, if_false, List.length_append,
    List.length_cons] at size
  omega

end CapabilityPipeline.Source
