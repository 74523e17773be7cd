import CapabilityPipeline.Proofs.Program.WellFormed
import CapabilityPipeline.Proofs.Source.Splitting

/-!
# The outline of accepted statements

A text that is read as a step begins with an opening square bracket and ends with a closing
bracket, and so does what is composed of steps. So a statement that is read neither continues the
line before it nor goes on with the line after it.

Results:

* `Bracketed`: between blanks, a text from an opening square bracket to a closing bracket.
* `Step.bracketed_of_parse`, `Pipeline.bracketed_of_parse`: the texts that are read.
* `isolated_of_parseStatement`: a statement that is read stays apart from its neighbours.
-/

namespace CapabilityPipeline

open Source Text

/-! ## Outlines -/

/-- Nothing but blanks follows a closing bracket at the end of a text. -/
def Closed (cs : List Char) : Prop :=
  ∃ front b after, cs = front ++ Bracket.closer b :: after ∧ Blanks after

/-- Between blanks, a text from an opening square bracket to a closing bracket. -/
structure Bracketed (cs : List Char) : Prop where
  first : ∃ before rest, cs = before ++ '[' :: rest ∧ Blanks before
  last : Closed cs

theorem Closed.append {cs : List Char} (h : Closed cs) (front : List Char) :
    Closed (front ++ cs) := by
  obtain ⟨before, b, after, rfl, blanks⟩ := h
  exact ⟨front ++ before, b, after, by rw [List.append_assoc], blanks⟩

theorem Closed.blanks {cs after : List Char} (h : Closed cs) (ha : Blanks after) :
    Closed (cs ++ after) := by
  obtain ⟨front, b, tail, rfl, blanks⟩ := h
  refine ⟨front, b, tail ++ after, by simp, fun c hc => ?_⟩
  rcases List.mem_append.mp hc with inside | behind
  · exact blanks c inside
  · exact ha c behind

/-- A closed text without blanks at its ends ends with the bracket. -/
theorem Closed.last_of_tidy {cs : List Char} (h : Closed cs) (tidy : Tidy cs) :
    ∃ front b, cs = front ++ [Bracket.closer b] := by
  obtain ⟨front, b, after, rfl, blanks⟩ := h
  refine ⟨front, b, ?_⟩
  obtain ⟨front', c, same, nonblank⟩ := tidy.last
  cases reversed : after.reverse with
  | nil => rw [List.reverse_eq_nil_iff.mp reversed]
  | cons d others =>
    have shape : after = others.reverse ++ [d] := by
      rw [← List.reverse_reverse after, reversed, List.reverse_cons]
    have final := congrArg List.getLast? same
    rw [shape, ← List.cons_append, ← List.append_assoc, List.getLast?_concat,
      List.getLast?_concat] at final
    cases final
    rw [blanks c (shape ▸ List.mem_concat_self)] at nonblank
    cases nonblank

theorem Bracketed.of_trim {cs : List Char} (h : Bracketed (trim cs)) : Bracketed cs := by
  obtain ⟨before, after, hb, ha, same⟩ := eq_blanks_trim cs
  obtain ⟨inner, rest, start, blanks⟩ := h.first
  constructor
  · refine ⟨before ++ inner, rest ++ after, ?_, fun c hc => ?_⟩
    · rw [same, start]
      simp
    · rcases List.mem_append.mp hc with outer | inner
      · exact hb c outer
      · exact blanks c inner
  · rw [same]
    exact (h.last.append before).blanks ha

theorem Bracketed.append {a b : List Char} (ha : Bracketed a) (hb : Bracketed b)
    (separator : List Char) : Bracketed (a ++ separator ++ b) := by
  obtain ⟨before, rest, rfl, blanks⟩ := ha.first
  exact ⟨⟨before, rest ++ separator ++ b, by simp, blanks⟩, hb.last.append _⟩

/-- A bracketed text without blanks at its ends starts with the bracket. -/
theorem Bracketed.first_of_tidy {cs : List Char} (h : Bracketed cs) (tidy : Tidy cs) :
    ∃ rest, cs = '[' :: rest := by
  obtain ⟨before, rest, rfl, blanks⟩ := h.first
  obtain ⟨c, rest', same, nonblank⟩ := tidy.head
  cases before with
  | nil => exact ⟨rest, rfl⟩
  | cons d before =>
    cases same
    rw [blanks c (List.mem_cons_self ..)] at nonblank
    cases nonblank

/-! ## Steps -/

/-- Behind a closed text a part of a step is a closed text, or there is none but blanks. -/
theorem Closed.target {front text : List Char} {target : Option String} (h : Closed front)
    (isTarget : TargetText text target) : Closed (front ++ text) := by
  cases isTarget with
  | absent => rwa [List.append_nil]
  | @present inner => exact ⟨front ++ '(' :: inner, .round, [], by simp [Bracket.closer], blanks_nil⟩

theorem Closed.params {front text : List Char} {params : Json.Object} (h : Closed front)
    (isParams : ParamsText text params) : Closed (front ++ text) := by
  rcases isParams.shape with ⟨rfl, -⟩ | ⟨inner, after, -, blanks, rfl, -⟩
  · rwa [List.append_nil]
  · exact ⟨front ++ '\x7b' :: inner, .curly, after, by simp [Bracket.closer], blanks⟩

/-- **A text that is read as a step goes from bracket to bracket.** -/
theorem Step.bracketed_of_parse {cs : List Char} {s : Step} (h : Step.parse cs = .ok s) :
    Bracketed cs := by
  refine .of_trim ?_
  obtain ⟨header, blanks, target, blanks', params, isHeader, hb, isTarget, hb', isParams, same⟩ :=
    Step.writtenAs_of_parse h
  obtain ⟨tail, start⟩ := isHeader.head (blanks ++ (target ++ (blanks' ++ params)))
  refine ⟨⟨[], tail, by rw [same, start]; rfl, blanks_nil⟩, ?_⟩
  obtain ⟨-, -, b₁, b₂, b₃, b₄, -, -, -, -, rfl⟩ := isHeader
  have header : Closed ('[' :: (b₁ ++ s.domain.toList ++ (b₂ ++ ':' ::
      (b₃ ++ s.action.toList ++ (b₄ ++ [']']))))) :=
    ⟨'[' :: (b₁ ++ s.domain.toList ++ (b₂ ++ ':' :: (b₃ ++ s.action.toList ++ b₄))), .square, [],
      by simp [Bracket.closer], blanks_nil⟩
  have whole := (((header.blanks hb).target isTarget).blanks hb').params isParams
  rw [same]
  simpa only [List.append_assoc] using whole

/-! ## Groups and pipelines -/

/-- What goes from bracket to bracket does so with more of it behind an operator. -/
theorem Chain.bracketed {α : Type} {op : Operator} {written : α → List Char → Prop} {as : List α}
    {cs : List Char} (h : Chain op written as cs)
    (each : ∀ a text, written a text → Bracketed text) : Bracketed cs := by
  induction h with
  | single first => exact each _ _ first
  | cons first _ ih => exact (each _ _ first).append ih _

theorem Group.WrittenAs.bracketed {g : Group} {text : List Char} (h : g.WrittenAs text) :
    Bracketed text := by
  cases h with
  | single read => exact Step.bracketed_of_parse read
  | parallel _ chain => exact chain.bracketed fun _ _ read => Step.bracketed_of_parse read
  | fallback _ chain => exact chain.bracketed fun _ _ read => Step.bracketed_of_parse read

/-- **A text that is read as a pipeline goes from bracket to bracket**, and as many brackets close
in it as open. -/
theorem Pipeline.bracketed_of_parse {cs : List Char} {p : Pipeline}
    (h : Pipeline.parse cs = .ok p) : Bracketed cs ∧ openDepth cs = 0 := by
  have written : Chain .sequence Group.WrittenAs p.groups cs := writtenAs_of_parse h
  obtain ⟨parts, pieces, -⟩ := written.pieces_eq fun _ _ isText => isText.avoids
  exact ⟨written.bracketed fun _ _ isText => isText.bracketed, openDepth_of_pieces pieces⟩

/-! ## Statements -/

/-- A statement that stays apart from the lines above and below it. -/
structure Isolated (cs : List Char) : Prop where
  above : startsWithOperator cs = false
  below : needsContinuation cs = false

/-- A text from a dollar sign or a square bracket to a closing bracket stays apart if its brackets
match. -/
theorem Isolated.of_closed {cs : List Char} (tidy : Tidy cs)
    (first : ∃ c rest, cs = c :: rest ∧ (c = '[' ∨ c = '$')) (last : Closed cs)
    (depth : openDepth cs = 0) : Isolated cs := by
  constructor
  · obtain ⟨c, rest, rfl, hc⟩ := first
    rw [startsWithOperator, List.any_eq_false]
    intro op _
    rw [Operator.not_isPrefixOf (by rcases hc with rfl | rfl <;> cases op <;> rfl)]
    decide
  · unfold needsContinuation
    dsimp only
    rw [tidy.trimEnd_eq, depth]
    obtain ⟨front, b, rfl⟩ := last.last_of_tidy tidy
    have noOperator : endsWithOperator (front ++ [b.closer]) = false := by
      rw [Bool.eq_false_iff]
      intro ends
      obtain ⟨op, -, suffix⟩ := List.any_eq_true.mp ends
      obtain ⟨before, same⟩ := List.isSuffixOf_iff_suffix.mp suffix
      have last := congrArg List.getLast? same
      rw [List.getLast?_concat, List.getLast?_append] at last
      cases op <;> cases b <;> cases last
    simp [noOperator]

/-- The parts of an assignment. -/
theorem eq_of_splitAssignment {cs value : List Char} {name : String}
    (h : splitAssignment cs = .ok (some (name, value))) :
    ∃ before after, cs = '$' :: (before ++ '=' :: after) ∧ trim before = name.toList ∧
      trim after = value := by
  unfold splitAssignment at h
  split at h
  · next rest =>
    split at h
    · cases h
    · next c after equals =>
      dsimp only at h
      split at h
      · cases h
      split at h
      · cases h
      cases h
      refine ⟨rest.takeWhile (· ≠ '='), after, ?_, by rw [String.toList_ofList], rfl⟩
      have first := List.head?_dropWhile_not (· ≠ '=') rest
      rw [equals] at first
      have same : c = '=' := by simpa using first
      have whole := List.takeWhile_append_dropWhile (p := (· ≠ '=')) (l := rest)
      rw [equals, same] at whole
      rw [whole]
  · cases h

theorem pieces_of_checkSingle {name : String} {value : List Char} {ops : List Operator}
    (h : checkSingle name value ops = .ok ()) :
    ∀ op ∈ ops, ∃ parts, pieces op value = .ok parts := by
  induction ops with
  | nil => exact fun _ none => by cases none
  | cons op rest ih =>
    obtain ⟨found, occurs, h⟩ := bind_eq_ok.mp h
    obtain ⟨parts, split, -⟩ := map_eq_ok.mp (mapError_eq_ok.mp occurs)
    split at h
    · cases h
    · exact List.forall_mem_cons.mpr ⟨⟨parts, split⟩, ih h⟩

theorem isQuiet_of_isVariableName {name : List Char} (h : isVariableName name = true) :
    ∀ c ∈ name, isQuiet c = true := by
  cases name with
  | nil => cases h
  | cons c rest =>
    obtain ⟨first, later⟩ := Bool.and_eq_true_iff.mp h
    exact List.forall_mem_cons.mpr ⟨isQuiet_of_class startsName (by decide) first, fun d hd =>
      isQuiet_of_class continuesName (by decide) (List.all_eq_true.mp later d hd)⟩

/-- What is trimmed away or kept is quiet if what is kept is. -/
theorem isQuiet_of_trim {cs : List Char} (h : ∀ c ∈ trim cs, isQuiet c = true) :
    ∀ c ∈ cs, isQuiet c = true := by
  obtain ⟨before, after, hb, ha, same⟩ := eq_blanks_trim cs
  intro c hc
  rw [same, List.mem_append, List.mem_append] at hc
  rcases hc with (blank | kept) | blank
  · exact isQuiet_of_isBlank (hb c blank)
  · exact h c kept
  · exact isQuiet_of_isBlank (ha c blank)

/-- Trimming leaves the depth as it is when the text is accepted. -/
theorem openDepth_of_trim {op : Operator} {cs : List Char} {parts : List (List Char)}
    (h : pieces op (trim cs) = .ok parts) : openDepth cs = 0 := by
  obtain ⟨before, after, hb, ha, same⟩ := eq_blanks_trim cs
  have behind := depthFrom_quiet (fun c hc => isQuiet_of_isBlank (ha c hc)) []
  rw [List.append_nil] at behind
  rw [same, openDepth, List.append_assoc, depthFrom_quiet fun c hc => isQuiet_of_isBlank (hb c hc),
    (splits_of_pieces h).depthFrom_append, behind]
  rfl

/-- **A statement that is read stays apart from the lines above and below it.** -/
theorem isolated_of_parseStatement {known : NameSet} {cs : List Char} {item : Item}
    (tidy : Tidy cs) (h : parseStatement known cs = .ok item) : Isolated cs := by
  obtain ⟨assignment, hsplit, h⟩ := bind_eq_ok.mp h
  split at h
  · next name value =>
    split at h
    · cases h
    obtain ⟨_, single, h⟩ := bind_eq_ok.mp h
    obtain ⟨step, parsed, -⟩ := bind_eq_ok.mp h
    obtain ⟨parts, pieces⟩ := pieces_of_checkSingle single .sequence (by decide)
    have valid := isVariableName_of_splitAssignment hsplit
    obtain ⟨before, after, rfl, isName, rfl⟩ := eq_of_splitAssignment hsplit
    have quiet : ∀ c ∈ '$' :: (before ++ ['=']), isQuiet c = true := by
      have name := isQuiet_of_trim (isName ▸ isQuiet_of_isVariableName valid)
      refine List.forall_mem_cons.mpr ⟨rfl, fun c hc => ?_⟩
      rcases List.mem_append.mp hc with inName | equals
      · exact name c inName
      · rw [List.mem_singleton.mp equals]
        rfl
    have shape : '$' :: (before ++ '=' :: after) = '$' :: (before ++ ['=']) ++ after := by simp
    refine .of_closed tidy ⟨'$', _, rfl, .inr rfl⟩ ?_ ?_
    · rw [shape]
      exact (Bracketed.of_trim (Step.bracketed_of_parse parsed)).last.append _
    · rw [shape, openDepth, depthFrom_quiet quiet]
      exact openDepth_of_trim pieces
  · obtain ⟨pipeline, parsed, -⟩ := bind_eq_ok.mp h
    obtain ⟨bracketed, depth⟩ := Pipeline.bracketed_of_parse parsed
    obtain ⟨rest, start⟩ := bracketed.first_of_tidy tidy
    exact .of_closed tidy ⟨'[', rest, start, .inl rfl⟩ bracketed.last depth

end CapabilityPipeline
