import CapabilityPipeline.Proofs.Program.LineText
import CapabilityPipeline.Proofs.Program.Sheet

/-!
# Layouts of a program

A program may be laid out in many ways: with line breaks beside operators, with comments at the end
of lines, with blank lines and lines of comments. All of them are read as the same program, which is
the program itself up to its doubles.

Results:

* `Program.LaidOut`: the texts of a program.
* `Pipeline.spreads`: a pipeline with line breaks is the same pipeline on several lines.
* `Program.parse_laidOut`: every layout is read as the program.
* `Program.laidOut_chars`: the canonical text is a layout.
* `Program.parse_layout`: every layout is read as the canonical text is.
-/

namespace CapabilityPipeline

open Source Text

/-! ## Line breaks beside operators -/

/-- A text that may stand beside an operator, on one line. -/
structure IsPiece (cs : List Char) : Prop where
  balanced : Balanced (fun _ => true) cs
  tidy : Tidy cs

/-- The first text is a tail of the second on several lines, behind any piece. -/
def Trails (raw text : List Char) : Prop :=
  ∀ piece, IsPiece piece → Spreads (piece ++ raw) (piece ++ text)

theorem trails_nil : Trails [] [] := by
  intro piece h
  rw [List.append_nil]
  exact .line h.balanced h.tidy

/-- A text in front of the first line. -/
theorem Spreads.prepend {raw text front : List Char} (h : Spreads raw text)
    (balanced : Balanced (fun _ => true) front)
    (first : ∃ c rest, front = c :: rest ∧ isBlank c = false) :
    Spreads (front ++ raw) (front ++ text) := by
  obtain ⟨c, rest, rfl, nonblank⟩ := first
  have longer {line : List Char} (tidy : Tidy line) : Tidy (c :: rest ++ line) := by
    obtain ⟨before, d, rfl, last⟩ := tidy.last
    exact ⟨⟨c, rest ++ (before ++ [d]), rfl, nonblank⟩,
      ⟨c :: rest ++ before, d, (List.append_assoc ..).symm, last⟩⟩
  cases h with
  | line inner tidy => exact .line (balanced.append inner) (longer tidy)
  | @broken line _ _ _ _ inner tidy hr hl joins below =>
    rw [← List.append_assoc, ← List.append_assoc (c :: rest) line]
    exact .broken (balanced.append inner) (longer tidy) hr hl
      (joins.imp_left fun last => endsWithOperator_append last _) below

theorem symbol_cons (op : Operator) :
    ∃ c rest, op.symbol = c :: rest ∧ isBlank c = false := by
  cases op <;> exact ⟨_, _, rfl, rfl⟩

theorem isPiece_symbol (op : Operator) : IsPiece op.symbol := by
  refine ⟨.of_all ?_, symbol_cons op, op.symbol.dropLast, op.symbol.head!, ?_⟩ <;>
    cases op <;> decide

/-- An operator with the spacing behind it, in front of the lines that follow. -/
theorem spreads_operator (op : Operator) {raw text right : List Char} (h : Spreads raw text)
    (spacing : IsSpacing right) : ∃ blanks, Padding blanks ∧
      Spreads (op.symbol ++ (right ++ raw)) (op.symbol ++ (blanks ++ text)) := by
  obtain ⟨balanced, tidy⟩ := isPiece_symbol op
  rcases spacing with blanks | ⟨remark, lead, hr, hl, rfl⟩
  · obtain ⟨c, rest, same, nonblank⟩ := symbol_cons op
    have behind := balanced.append (blanks.balanced.mono fun _ _ => rfl)
    have front := h.prepend behind ⟨c, rest ++ right, by rw [same, List.cons_append], nonblank⟩
    rw [List.append_assoc, List.append_assoc] at front
    exact ⟨right, blanks, front⟩
  · have ends : endsWithOperator op.symbol = true := by cases op <;> rfl
    have broken := Spreads.broken balanced tidy hr hl (.inl ends) h
    refine ⟨[' '], padding_space, ?_⟩
    rw [List.append_assoc, List.cons_append]
    exact broken

/-- A separator with line breaks, in front of the lines that follow. -/
theorem trails_separator {op : Operator} {raw text separator : List Char} (h : Spreads raw text)
    (hs : Separates IsSpacing op separator) : ∃ padded, Separates Padding op padded ∧
      Trails (separator ++ raw) (padded ++ text) := by
  obtain ⟨left, right, spacing, hr, rfl⟩ := hs
  obtain ⟨blanks, hb, behind⟩ := spreads_operator op h hr
  rcases spacing with before | ⟨remark, lead, hr, hl, rfl⟩
  · refine ⟨left ++ op.symbol ++ blanks, ⟨left, blanks, before, hb, rfl⟩, fun piece hp => ?_⟩
    obtain ⟨c, rest, same, nonblank⟩ := hp.tidy.head
    have front := behind.prepend (hp.balanced.append (before.balanced.mono fun _ _ => rfl))
      ⟨c, rest ++ left, by rw [same, List.cons_append], nonblank⟩
    simp only [List.append_assoc] at front ⊢
    exact front
  · refine ⟨[' '] ++ op.symbol ++ blanks, ⟨[' '], blanks, padding_space, hb, rfl⟩,
      fun piece hp => ?_⟩
    have starts : startsWithOperator (op.symbol ++ (blanks ++ text)) = true := by
      refine startsWithOperator_append ?_ _
      cases op <;> rfl
    have broken := Spreads.broken hp.balanced hp.tidy hr hl (.inr starts) behind
    simp only [List.append_assoc, List.cons_append, List.nil_append] at broken ⊢
    exact broken

/-- Pieces with line breaks beside the operators between them. -/
theorem spreads_joined {op : Operator} {texts : List (List Char)} {cs : List Char}
    (h : Joined (Separates IsSpacing op) texts cs) (pieces : ∀ text ∈ texts, IsPiece text)
    {raw text : List Char} (tail : Trails raw text) :
    ∃ padded, Joined (Separates Padding op) texts padded ∧
      Spreads (cs ++ raw) (padded ++ text) := by
  induction h with
  | single piece =>
    exact ⟨piece, .single piece, tail piece (pieces piece (List.mem_singleton_self piece))⟩
  | cons piece hs _ ih =>
    obtain ⟨first, others⟩ := List.forall_mem_cons.mp pieces
    obtain ⟨later, joined, spreads⟩ := ih others
    obtain ⟨separator, hs', trails⟩ := trails_separator spreads hs
    refine ⟨piece ++ separator ++ later, .cons piece hs' joined, ?_⟩
    have whole := trails piece first
    simp only [List.append_assoc] at whole ⊢
    exact whole

/-! ## Groups and pipelines -/

theorem Step.isPiece_chars {s : Step} (h : s.WellFormed) : IsPiece s.chars :=
  ⟨(isLine_chars h).balanced, (isLine_chars h).tidy⟩

/-- A group with line breaks, in front of the lines that follow. -/
theorem Group.spreads {g : Group} (h : g.WellFormed) {cs : List Char}
    (laid : g.LaidOut IsSpacing cs) {raw text : List Char} (tail : Trails raw text) :
    ∃ padded, g.LaidOut Padding padded ∧ Spreads (cs ++ raw) (padded ++ text) := by
  have branches {steps : List Step} (valid : ∀ s ∈ steps, s.WellFormed) :
      ∀ text ∈ branchChars (steps.map .single), IsPiece text := by
    rw [branchChars_single]
    intro text ht
    obtain ⟨s, hs, rfl⟩ := List.mem_map.mp ht
    exact Step.isPiece_chars (valid s hs)
  cases h with
  | single valid =>
    cases laid
    exact ⟨_, rfl, tail _ (Step.isPiece_chars valid)⟩
  | parallel two valid => exact spreads_joined laid (branches valid) tail
  | fallback two valid => exact spreads_joined laid (branches valid) tail

/-- Groups with line breaks, in them and beside the operators between them. -/
theorem spreads_groups {groups : List Group} (h : ∀ g ∈ groups, g.WellFormed)
    {raws : List (List Char)} (laid : List.Forall₂ (Group.LaidOut IsSpacing) groups raws)
    {cs : List Char} (joined : Joined (Separates IsSpacing .sequence) raws cs) :
    ∃ texts padded, List.Forall₂ (Group.LaidOut Padding) groups texts ∧
      Joined (Separates Padding .sequence) texts padded ∧ Spreads cs padded := by
  induction joined generalizing groups with
  | single raw =>
    obtain ⟨g, _, first, none, rfl⟩ := List.forall₂_cons_right_iff.mp laid
    cases none
    obtain ⟨padded, laid, spreads⟩ :=
      Group.spreads (h g (List.mem_singleton_self g)) first trails_nil
    rw [List.append_nil, List.append_nil] at spreads
    exact ⟨[padded], padded, .cons laid .nil, .single padded, spreads⟩
  | cons raw hs _ ih =>
    obtain ⟨g, others, first, rest, rfl⟩ := List.forall₂_cons_right_iff.mp laid
    obtain ⟨valid, validRest⟩ := List.forall_mem_cons.mp h
    obtain ⟨texts, later, laidRest, joined, spreads⟩ := ih validRest rest
    obtain ⟨separator, hs', trails⟩ := trails_separator spreads hs
    obtain ⟨padded, laid, whole⟩ := Group.spreads valid first trails
    refine ⟨padded :: texts, padded ++ separator ++ later, .cons laid laidRest,
      .cons padded hs' joined, ?_⟩
    simp only [List.append_assoc] at whole ⊢
    exact whole

/-- **A pipeline with line breaks is the same pipeline on several lines.** -/
theorem Pipeline.spreads {p : Pipeline} (h : p.WellFormed) {cs : List Char}
    (laid : p.LaidOut IsSpacing cs) : ∃ text, p.LaidOut Padding text ∧ Spreads cs text := by
  obtain ⟨raws, groups, joined⟩ := laid
  obtain ⟨texts, padded, groups, joined, spreads⟩ := spreads_groups h.groups groups joined
  exact ⟨padded, ⟨texts, groups, joined⟩, spreads⟩

/-! ## Programs -/

namespace Program

/-- The program with each number as its text is read. -/
def reread (p : Program) : Program :=
  ⟨p.bindings.map Binding.reread, p.pipelines.map Pipeline.reread⟩

/-- A text is the canonical text of a program but for its layout: line breaks and blanks beside
operators, comments at the end of lines, and idle lines above and below statements. -/
def LaidOut (p : Program) (cs : List Char) : Prop :=
  ∃ texts, List.Forall₂ (Pipeline.LaidOut IsSpacing) p.pipelines texts ∧
    Sheet (p.bindings.map Binding.chars ++ texts) cs

/-- A program without its first binding, after its name. -/
theorem WellFormedAfter.tail {known : NameSet} {b : Binding} {bindings : List Binding}
    {pipelines : List Pipeline} (h : WellFormedAfter known ⟨b :: bindings, pipelines⟩) :
    WellFormedAfter (known.add b.name) ⟨bindings, pipelines⟩ where
  valid := (List.forall_mem_cons.mp h.valid).2
  distinct := (List.nodup_cons.mp h.distinct).2
  fresh := by
    intro b' hb'
    rw [Bool.eq_false_iff]
    intro already
    rcases (NameSet.contains_add known b.name b'.name).mp already with same | already
    · exact (List.nodup_cons.mp h.distinct).1 (same ▸ List.mem_map_of_mem hb')
    · have fresh := (List.forall_mem_cons.mp h.fresh).2 b' hb'
      rw [already] at fresh
      cases fresh
  bindings := (List.forall_mem_cons.mp h.bindings).2
  earlier := by
    intro before b' after split name hname
    rw [NameSet.contains_add]
    rcases h.earlier (b :: before) b' after (congrArg (b :: ·) split) name hname
      with already | found
    · exact .inl (.inr already)
    · rcases List.mem_cons.mp found with same | found
      · exact .inl (.inl same)
      · exact .inr found
  pipelines := h.pipelines
  assigned := by
    intro s hs name hname
    rw [NameSet.contains_add]
    rcases h.assigned s hs name hname with already | found
    · exact .inl (.inr already)
    · rcases List.mem_cons.mp found with same | found
      · exact .inl (.inl same)
      · exact .inr found

theorem parseStatements_pipelines {known : NameSet} {pipelines : List Pipeline}
    (h : WellFormedAfter known ⟨[], pipelines⟩)
    (finite : ∀ s ∈ pipelines.flatMap fun p => p.groups.flatMap Group.steps, s.IsFinite)
    {texts : List (List Char)} (laid : List.Forall₂ (Pipeline.LaidOut Padding) pipelines texts)
    {statements : List Statement} (same : statements.map Statement.text = texts) :
    parseStatements known statements = .ok ⟨[], pipelines.map Pipeline.reread⟩ := by
  have known_of (p : Pipeline) (hp : p ∈ pipelines) : ∀ step ∈ p.groups.flatMap Group.steps,
      ∀ name ∈ step.mentions.keys, known.contains name = true := by
    intro step hs name hname
    rcases h.assigned step (List.mem_flatMap.mpr ⟨p, hp, hs⟩) name hname with already | found
    · exact already
    · cases found
  have wellFormed := h.pipelines
  clear h
  induction laid generalizing statements with
  | nil =>
    rw [List.map_eq_nil_iff.mp same]
    rfl
  | cons first _ ih =>
    obtain ⟨statement, others, rfl, here, later⟩ := List.map_eq_cons_iff.mp same
    rw [List.forall_mem_cons] at known_of wellFormed
    rw [List.flatMap_cons, List.forall_mem_append] at finite
    rw [parseStatements, here,
      Pipeline.parseStatement_laidOut wellFormed.1 finite.1 known_of.1 first]
    simp only [Except.mapError, bind, Except.bind]
    rw [ih finite.2 later known_of.2 wellFormed.2]
    rfl

/-- **Statements on one line each are read as the program**, up to its doubles. -/
theorem parseStatements_laidOut {known : NameSet} {p : Program} (h : p.WellFormedAfter known)
    (finite : p.IsFinite) {texts : List (List Char)}
    (laid : List.Forall₂ (Pipeline.LaidOut Padding) p.pipelines texts)
    {statements : List Statement}
    (same : statements.map Statement.text = p.bindings.map Binding.chars ++ texts) :
    parseStatements known statements = .ok p.reread := by
  obtain ⟨bindings, pipelines⟩ := p
  induction bindings generalizing known statements with
  | nil => exact parseStatements_pipelines h finite.2 laid same
  | cons b rest ih =>
    obtain ⟨statement, others, rfl, here, later⟩ := List.map_eq_cons_iff.mp same
    obtain ⟨first, finiteRest⟩ := List.forall_mem_cons.mp finite.1
    have mentions : ∀ name ∈ b.step.mentions.keys, known.contains name = true := by
      intro name hname
      rcases h.earlier [] b rest rfl name hname with already | found
      · exact already
      · cases found
    rw [parseStatements, here, Binding.parseStatement_chars (List.forall_mem_cons.mp h.valid).1
      (List.forall_mem_cons.mp h.fresh).1 (List.forall_mem_cons.mp h.bindings).1 first mentions]
    simp only [Except.mapError, bind, Except.bind]
    rw [show b.reread.name = b.name from rfl, ih h.tail ⟨finiteRest, finite.2⟩ laid later]
    rfl

section

variable {pipelines : List Pipeline} (h : ∀ p ∈ pipelines, p.WellFormed)
  {texts : List (List Char)}

include h in
theorem isLine_pipelines (laid : List.Forall₂ (Pipeline.LaidOut Padding) pipelines texts) :
    ∀ text ∈ texts, IsLine text := by
  induction laid with
  | nil => exact fun _ none => by cases none
  | cons first _ ih =>
    obtain ⟨valid, others⟩ := List.forall_mem_cons.mp h
    exact List.forall_mem_cons.mpr ⟨(Pipeline.isLine_laidOut valid first).1, ih others⟩

include h in
/-- Pipelines on several lines are the same pipelines on one line each. -/
theorem spreads_pipelines (laid : List.Forall₂ (Pipeline.LaidOut IsSpacing) pipelines texts) :
    ∃ lines, List.Forall₂ (Pipeline.LaidOut Padding) pipelines lines ∧
      List.Forall₂ Spreads texts lines := by
  induction laid with
  | nil => exact ⟨[], .nil, .nil⟩
  | cons first _ ih =>
    obtain ⟨valid, others⟩ := List.forall_mem_cons.mp h
    obtain ⟨lines, laid, spreads⟩ := ih others
    obtain ⟨line, here, spread⟩ := Pipeline.spreads valid first
    exact ⟨line :: lines, .cons here laid, .cons spread spreads⟩

end

theorem isLine_bindings {p : Program} (h : p.WellFormed) :
    ∀ text ∈ p.bindings.map Binding.chars, IsLine text := by
  intro text ht
  obtain ⟨b, hb, rfl⟩ := List.mem_map.mp ht
  exact Binding.isLine_chars (h.valid b hb) (h.bindings b hb)

/-- **Every layout of a program is read as the program**, up to its doubles. -/
theorem parse_laidOut {p : Program} (h : p.WellFormed) (finite : p.IsFinite) {text : String}
    (laid : p.LaidOut text.toList) : Program.parse text = .ok p.reread := by
  obtain ⟨raws, pipelines, sheet⟩ := laid
  obtain ⟨texts, laid, spreads⟩ := spreads_pipelines h.pipelines pipelines
  have lines : ∀ text ∈ p.bindings.map Binding.chars ++ texts, IsLine text :=
    List.forall_mem_append.mpr ⟨isLine_bindings h, isLine_pipelines h.pipelines laid⟩
  have bindings : List.Forall₂ Spreads (p.bindings.map Binding.chars)
      (p.bindings.map Binding.chars) :=
    List.forall₂_same.mpr fun text ht =>
      .line (isLine_bindings h text ht).balanced (isLine_bindings h text ht).tidy
  have found := sheet.statementTexts_eq (List.rel_append bindings spreads)
    fun text ht => (lines text ht).isolated
  have nonempty : p.bindings.map Binding.chars ++ texts ≠ [] := by
    intro none
    obtain ⟨noBindings, noPipelines⟩ := List.append_eq_nil_iff.mp none
    subst noPipelines
    rcases h.nonempty with some | some
    · exact some (List.map_eq_nil_iff.mp noBindings)
    · exact some (List.forall₂_nil_right_iff.mp laid)
  unfold Program.parse
  rw [statementTexts] at found
  split
  · next none =>
    rw [none] at found
    exact absurd found.symm nonempty
  · exact parseStatements_laidOut h.toWellFormedAfter finite laid found

end Program

/-! ## The canonical layout -/

/-- Lines below each other with nothing else between them. -/
theorem sheet_joinWith {texts : List (List Char)} (nonempty : texts ≠ []) :
    Sheet texts (joinWith ['\n'] texts) := by
  have lead : Lead [] := .indent padding_nil
  induction texts with
  | nil => exact absurd rfl nonempty
  | cons text others ih =>
    cases others with
    | nil =>
      have last := Sheet.last text lead isRemark_nil
      rw [List.append_nil] at last
      exact last
    | cons next others =>
      have below := Sheet.cons text lead isRemark_nil (ih (List.cons_ne_nil next others))
      rw [List.append_nil, List.nil_append] at below
      rw [joinWith_cons_cons, List.append_assoc]
      exact below

/-- Texts with an operator between single spaces. -/
theorem joined_spaced (op : Operator) {texts : List (List Char)} (nonempty : texts ≠ []) :
    Joined (Separates IsSpacing op) texts (joinWith (spaced op) texts) := by
  refine (joined_joinWith nonempty).mono ?_
  rintro _ rfl
  exact ⟨[' '], [' '], .inl padding_space, .inl padding_space, rfl⟩

theorem Group.laidOut_chars {g : Group} (h : g.WellFormed) : g.LaidOut IsSpacing g.chars := by
  have nonempty {steps : List Step} (two : 2 ≤ steps.length) :
      branchChars (steps.map .single) ≠ [] := by
    rw [branchChars_single]
    intro none
    rw [List.map_eq_nil_iff.mp none] at two
    cases two
  cases h with
  | single h =>
    rw [chars]
    rfl
  | parallel two h =>
    rw [chars]
    exact joined_spaced .parallel (nonempty two)
  | fallback two h =>
    rw [chars]
    exact joined_spaced .fallback (nonempty two)

theorem Pipeline.laidOut_chars {p : Pipeline} (h : p.WellFormed) :
    p.LaidOut IsSpacing p.chars := by
  refine ⟨p.groups.map Group.chars, ?_, joined_spaced .sequence ?_⟩
  · rw [List.forall₂_map_right_iff, List.forall₂_same]
    exact fun g hg => Group.laidOut_chars (h.groups g hg)
  · exact fun none => h.nonempty (List.map_eq_nil_iff.mp none)

namespace Program

/-- **The canonical text of a program is one of its layouts.** -/
theorem laidOut_chars {p : Program} (h : p.WellFormed) : p.LaidOut p.chars := by
  refine ⟨p.pipelines.map Pipeline.chars, ?_, sheet_joinWith fun none => ?_⟩
  · rw [List.forall₂_map_right_iff, List.forall₂_same]
    exact fun pipeline hp => Pipeline.laidOut_chars (h.pipelines pipeline hp)
  · obtain ⟨noBindings, noPipelines⟩ := List.append_eq_nil_iff.mp none
    rcases h.nonempty with some | some
    · exact some (List.map_eq_nil_iff.mp noBindings)
    · exact some (List.map_eq_nil_iff.mp noPipelines)

/-- **The canonical text of a program is read as the program**, up to its doubles. -/
theorem parse_render_eq_reread {p : Program} (h : p.WellFormed) (finite : p.IsFinite) :
    Program.parse p.render = .ok p.reread := by
  refine parse_laidOut h finite ?_
  rw [render, String.toList_ofList]
  exact laidOut_chars h

/-- **Layout and comments do not change the meaning of a program.** Every layout of a program that
was read from a text is read as its canonical text is, and both are read. -/
theorem parse_layout {code text : String} {p : Program} (h : Program.parse code = .ok p)
    (laid : p.LaidOut text.toList) :
    Program.parse text = Program.parse p.render ∧ Program.parse p.render = .ok p.reread := by
  have canonical := parse_render_eq_reread (wellFormed_of_parse h) (isFinite_of_parse h)
  exact ⟨(parse_laidOut (wellFormed_of_parse h) (isFinite_of_parse h) laid).trans canonical.symm,
    canonical⟩

/-- A comment of a quote, a bracket and an operator at the top, behind every line and between two
lines of a pipeline, blank lines, line breaks in front of an operator and behind one, and a
double. -/
theorem parse_layout_mail :
    ∃ p text,
      Program.parse "$a=[m:find]\n[m:send]($a)\x7b\"x\":15e-1\x7d&[m:log]>>[m:note]" = .ok p ∧
      text = "#\"(&\n\n$a = [m:find] #\"(&\n[m:send](\"$a\") \x7b\"x\":1.5\x7d #\"(&\n #\"(&\n " ++
        "& [m:log] >> #\"(&\n[m:note] #\"(&\n" ∧
      p.LaidOut text.toList ∧ Program.parse text = Program.parse p.render := by
  let find : Binding := ⟨"a", ⟨"m", "find", none, []⟩⟩
  let send : Step := ⟨"m", "send", some "$a", [("x", .number (.double 1.5))]⟩
  let log : Step := ⟨"m", "log", none, []⟩
  let note : Step := ⟨"m", "note", none, []⟩
  have h : Program.parse "$a=[m:find]\n[m:send]($a)\x7b\"x\":15e-1\x7d&[m:log]>>[m:note]" =
      .ok ⟨[find], [⟨[.parallel [.single send, .single log], .single note]⟩]⟩ := by
    decide +kernel
  let hash : List Char := ['#', '"', '(', '&']
  have comment : IsComment hash := .inr ⟨_, rfl, by decide⟩
  have remark : IsRemark (' ' :: hash) := ⟨[' '], _, padding_space, comment, nofun, rfl⟩
  have top : Lead (hash ++ '\n' :: ([] ++ '\n' :: [])) :=
    .idle ⟨[], _, padding_nil, comment, rfl⟩
      (.idle ⟨[], [], padding_nil, .inl rfl, rfl⟩ (.indent padding_nil))
  have left : Lead (' ' :: hash ++ '\n' :: [' ']) :=
    .idle ⟨[' '], _, padding_space, comment, rfl⟩ (.indent padding_space)
  have branches : Joined (Separates IsSpacing .parallel) [send.chars, log.chars] _ :=
    .cons _ ⟨_, _, .inr ⟨_, _, remark, left, rfl⟩, .inl padding_space, rfl⟩ (.single _)
  have groups (text : List Char) : Joined (Separates IsSpacing .sequence) [text, note.chars]
      (text ++ ([' '] ++ ['>', '>'] ++ (' ' :: hash ++ '\n' :: [])) ++ note.chars) :=
    .cons _ ⟨_, _, .inl padding_space, .inr ⟨_, _, remark, .indent padding_nil, rfl⟩, rfl⟩
      (.single _)
  have sheet (text : List Char) : Sheet [find.chars, text]
      (hash ++ '\n' :: ([] ++ '\n' :: []) ++ (find.chars ++ ' ' :: hash ++
        '\n' :: ([] ++ (text ++ ' ' :: hash ++ '\n' :: ([] ++ []))))) :=
    .cons _ top remark (.cons _ (.indent padding_nil) remark
      (.done (.indent padding_nil) (.inl rfl)))
  have laid : LaidOut ⟨[find], [⟨[.parallel [.single send, .single log], .single note]⟩]⟩ _ :=
    ⟨[_], .cons ⟨[_, _], .cons branches (.cons rfl .nil), groups _⟩ .nil, sheet _⟩
  refine ⟨_, _, h, rfl, ?_⟩
  refine (fun same => ⟨same, (parse_layout h same).1⟩) ?_
  refine Eq.subst ?_ laid
  decide +kernel

end Program

end CapabilityPipeline
