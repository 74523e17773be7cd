import CapabilityPipeline.Proofs.Program.StepGrammar

/-!
# The grammar of pipelines

A pipeline is written as groups with the operator of sequences between them. A group is written
as a step, or as steps with the operator of branches or that of fallbacks between them. Each of
the three operators is looked for on its own; since operators stand in the literals and brackets
of a step only, the searches agree, and exactly the texts of this grammar are accepted.

Results:

* `Chain`: the texts of several things with an operator between them.
* `Chain.pieces_eq`: the pieces of such a text are the texts of the things.
* `Group.WrittenAs`, `Pipeline.WrittenAs`: the texts of a group and of a pipeline.
* `Pipeline.parse_iff_composed`: a text is read as a pipeline just when it is one of the pipeline's
  texts.
-/

namespace CapabilityPipeline

open Source Text

/-! ## The grammar -/

/-- The texts of several things, at least one, with an operator between them. -/
inductive Chain {α : Type} (op : Operator) (written : α → List Char → Prop) :
    List α → List Char → Prop
  | single {a : α} {text : List Char} (h : written a text) : Chain op written [a] text
  | cons {a : α} {others : List α} {text rest : List Char} (h : written a text)
      (later : Chain op written others rest) :
      Chain op written (a :: others) (text ++ op.symbol ++ rest)

/-- The texts that are read as a step. -/
def Step.ReadFrom (s : Step) (text : List Char) : Prop := Step.parse text = .ok s

/-- A text of a group: one that is read as a step, or at least two of them with one operator
between them. -/
inductive Group.WrittenAs : Group → List Char → Prop
  | single {s : Step} {text : List Char} (h : s.ReadFrom text) : WrittenAs (.single s) text
  | parallel {steps : List Step} {text : List Char} (two : 2 ≤ steps.length)
      (h : Chain .parallel Step.ReadFrom steps text) :
      WrittenAs (.parallel (steps.map .single)) text
  | fallback {steps : List Step} {text : List Char} (two : 2 ≤ steps.length)
      (h : Chain .fallback Step.ReadFrom steps text) :
      WrittenAs (.fallback (steps.map .single)) text

/-- A text of a pipeline. -/
def Pipeline.WrittenAs (p : Pipeline) (text : List Char) : Prop :=
  Chain .sequence Group.WrittenAs p.groups text

/-! ## Chains -/

namespace Chain

variable {α β : Type} {op : Operator} {written : α → List Char → Prop} {as : List α}
  {cs : List Char}

theorem ne_nil (h : Chain op written as cs) : as ≠ [] := by
  cases h <;> exact List.cons_ne_nil _ _

/-- Everything in a chain has a text. -/
theorem exists_text (h : Chain op written as cs) {a : α} (ha : a ∈ as) :
    ∃ text, written a text := by
  induction h with
  | single first =>
    cases List.mem_singleton.mp ha
    exact ⟨_, first⟩
  | cons first _ ih =>
    rcases List.mem_cons.mp ha with rfl | later
    · exact ⟨_, first⟩
    · exact ih later

/-- Texts one after another are a chain of what they are texts of. -/
theorem of_forall₂ {texts : List (List Char)} (nonempty : texts ≠ [])
    (h : List.Forall₂ written as texts) : Chain op written as (joinWith op.symbol texts) := by
  induction h with
  | nil => exact absurd rfl nonempty
  | @cons a text others rest first later ih =>
    cases rest with
    | nil =>
      cases later
      exact .single first
    | cons next rest =>
      rw [joinWith_cons_cons]
      exact .cons first (ih (List.cons_ne_nil next rest))

/-- What holds of the texts, of the operator and of texts put together, holds of a chain. -/
theorem enclosed {allowed : Char → Bool} (h : Chain op written as cs)
    (each : ∀ a text, written a text → Enclosed allowed text)
    (symbol : op.symbol.all allowed = true) : Enclosed allowed cs := by
  have symbol : Enclosed allowed op.symbol := .of_quiet fun c hc =>
    ⟨List.all_eq_true.mp (isQuiet_symbol op) c hc, List.all_eq_true.mp symbol c hc⟩
  induction h with
  | single first => exact each _ _ first
  | cons first _ ih => exact ((each _ _ first).append symbol).append ih

theorem piecesFrom_eq (h : Chain op written as cs)
    (each : ∀ a text, written a text → Enclosed op.avoids text) (offset : Nat) :
    ∃ texts, piecesFrom op ⟨offset, .outside, [], 0⟩ cs = .ok texts ∧
      List.Forall₂ written as texts := by
  induction h generalizing offset with
  | @single a text first =>
    have passed := (each a text first).piecesFrom_eq offset [] (fun _ _ ok => ok) []
    rw [List.append_nil] at passed
    refine ⟨[text], ?_, .cons first .nil⟩
    rw [passed]
    simp [piecesFrom, Except.map, prependFirst_cons]
  | @cons a others text rest first _ ih =>
    obtain ⟨texts, found, later⟩ := ih (offset + byteCount text + byteCount op.symbol)
    refine ⟨text :: texts, ?_, .cons first later⟩
    rw [List.append_assoc, (each a text first).piecesFrom_eq offset [] (fun _ _ ok => ok),
      piecesFrom_symbol, found]
    simp [Except.map, prependFirst_cons]

/-- **The pieces of a chain are the texts in it**, if these hold no operator at top level. -/
theorem pieces_eq (h : Chain op written as cs)
    (each : ∀ a text, written a text → Enclosed op.avoids text) :
    ∃ texts, pieces op cs = .ok texts ∧ List.Forall₂ written as texts :=
  h.piecesFrom_eq each 0

end Chain

/-! ## Blanks -/

/-- What has texts that are not blank, and the same ones up to blanks at the ends. -/
structure IgnoresBlanks {α : Type} (written : α → List Char → Prop) : Prop where
  nonblank : ∀ {a text}, written a text → trim text ≠ []
  congr : ∀ {a text text'}, trim text = trim text' → written a text → written a text'

namespace Chain

variable {α : Type} {op : Operator} {written : α → List Char → Prop} {as : List α}
  {cs : List Char}

theorem trimStart (ignores : IgnoresBlanks written) (h : Chain op written as cs) :
    Chain op written as (trimStart cs) := by
  cases h with
  | single first => exact .single (ignores.congr (trim_trimStart _).symm first)
  | cons first later =>
    rw [List.append_assoc, trimStart_append (ignores.nonblank first), ← List.append_assoc]
    exact .cons (ignores.congr (trim_trimStart _).symm first) later

theorem nonblank (ignores : IgnoresBlanks written) (h : Chain op written as cs) :
    trim cs ≠ [] := by
  intro blank
  cases h with
  | single first => exact ignores.nonblank first blank
  | cons first later =>
    refine ignores.nonblank first (trim_eq_nil_iff.mpr fun c hc => ?_)
    exact trim_eq_nil_iff.mp blank c (List.mem_append_left _ (List.mem_append_left _ hc))

theorem trimEnd (ignores : IgnoresBlanks written) (h : Chain op written as cs) :
    Chain op written as (trimEnd cs) := by
  induction h with
  | single first => exact .single (ignores.congr (trim_trimEnd _).symm first)
  | cons first later ih =>
    rw [trimEnd_append (later.nonblank ignores)]
    exact .cons first ih

theorem blanks_append (ignores : IgnoresBlanks written) (h : Chain op written as cs)
    {before : List Char} (hb : Blanks before) : Chain op written as (before ++ cs) := by
  cases h with
  | single first => exact .single (ignores.congr (blanks_trim hb _).symm first)
  | cons first later =>
    rw [List.append_assoc, ← List.append_assoc, ← List.append_assoc]
    exact .cons (ignores.congr (blanks_trim hb _).symm first) later

theorem append_blanks (ignores : IgnoresBlanks written) (h : Chain op written as cs)
    {after : List Char} (ha : Blanks after) : Chain op written as (cs ++ after) := by
  induction h with
  | single first => exact .single (ignores.congr (trim_blanks ha _).symm first)
  | cons first _ ih =>
    rw [List.append_assoc]
    exact .cons first ih

end Chain

/-- A chain is trimmed and padded at its first and last text only. -/
theorem IgnoresBlanks.chain {α : Type} {op : Operator} {written : α → List Char → Prop}
    (ignores : IgnoresBlanks written) : IgnoresBlanks (Chain op written) where
  nonblank := Chain.nonblank ignores
  congr := by
    intro as text text' same h
    have trimmed : Chain op written as (trim text) := (h.trimStart ignores).trimEnd ignores
    obtain ⟨before, after, hb, ha, whole⟩ := eq_blanks_trim text'
    rw [whole, ← same]
    exact (trimmed.blanks_append ignores hb).append_blanks ignores ha

/-- Texts with an operator between blanks are a chain. -/
theorem Chain.of_joined {α : Type} {op : Operator} {written : α → List Char → Prop}
    (ignores : IgnoresBlanks written) {texts : List (List Char)} {cs : List Char}
    (h : Joined (Separates Padding op) texts cs) {as : List α}
    (each : List.Forall₂ written as texts) : Chain op written as cs := by
  induction h generalizing as with
  | single text =>
    cases each with
    | cons first none =>
      cases none
      exact .single first
  | @cons text separator rest others hs _ ih =>
    cases each with
    | cons first later =>
      obtain ⟨left, right, hl, hr, rfl⟩ := hs
      have shape : text ++ (left ++ op.symbol ++ right) ++ rest =
          text ++ left ++ op.symbol ++ (right ++ rest) := by
        simp only [List.append_assoc]
      rw [shape]
      exact .cons (ignores.congr (trim_blanks hl.blanks text).symm first)
        ((ih later).blanks_append ignores hr.blanks)

/-! ## Steps -/

theorem Step.ignoresBlanks_readFrom : IgnoresBlanks Step.ReadFrom where
  nonblank h := (Step.writtenAs_of_parse h).tidy.ne_nil
  congr same h := by
    rw [ReadFrom, Step.parse] at h ⊢
    rwa [← same]

theorem Step.ReadFrom.enclosed {s : Step} {text : List Char} (h : s.ReadFrom text) :
    Enclosed isOperand text :=
  (Step.writtenAs_of_parse h).enclosed

/-- No operator splits the text of a step. -/
theorem Step.ReadFrom.avoids {s : Step} {text : List Char} (h : s.ReadFrom text)
    (op : Operator) : Enclosed op.avoids text :=
  h.enclosed.mono fun _ => avoids_of_isOperand op

/-! ## Groups -/

section

variable {op : Operator} {steps : List Step} {segment : List Char}

theorem symbol_avoids {other : Operator} (differs : other ≠ op) :
    op.symbol.all other.avoids = true := by
  revert differs
  cases op <;> cases other <;> decide

/-- Another operator does not split steps that one operator joins. -/
theorem avoids_of_chain (h : Chain op Step.ReadFrom steps segment) {other : Operator}
    (differs : other ≠ op) : Enclosed other.avoids segment :=
  h.enclosed (fun _ _ read => read.avoids other) (symbol_avoids differs)

theorem occurs_of_chain (h : Chain op Step.ReadFrom steps segment) :
    occurs op segment = .ok (2 ≤ steps.length) := by
  obtain ⟨texts, found, read⟩ := h.pieces_eq fun _ _ read => read.avoids op
  rw [occurs, found, read.length_eq]
  rfl

/-- The branch that a text between two operators describes. -/
theorem parseBranch_eq_ok_iff {text : List Char} {g : Group} :
    (if (trim text).isEmpty then throw (.emptyBranch op)
      else (Step.parse (trim text)).map Group.single) = Except.ok g ↔
      ∃ s : Step, g = .single s ∧ s.ReadFrom text := by
  have trimmed {s : Step} : s.ReadFrom (trim text) ↔ s.ReadFrom text :=
    ⟨Step.ignoresBlanks_readFrom.congr (trim_trim text),
      Step.ignoresBlanks_readFrom.congr (trim_trim text).symm⟩
  constructor
  · intro h
    split at h
    · cases h
    · obtain ⟨s, parsed, rfl⟩ := map_eq_ok.mp h
      exact ⟨s, rfl, trimmed.mp parsed⟩
  · rintro ⟨s, rfl, read⟩
    rw [if_neg fun none =>
      Step.ignoresBlanks_readFrom.nonblank read (List.isEmpty_iff.mp none)]
    exact map_eq_ok.mpr ⟨s, trimmed.mpr read, rfl⟩

/-- **The branches of a text are the steps that the operator joins in it.** -/
theorem parseBranches_eq_ok_iff {groups : List Group} :
    parseBranches op segment = .ok groups ↔
      ∃ steps : List Step, groups = steps.map .single ∧
        Chain op Step.ReadFrom steps segment := by
  constructor
  · intro h
    obtain ⟨branches, split, parsed⟩ := bind_eq_ok.mp h
    obtain ⟨texts, found, rfl⟩ := map_eq_ok.mp (mapError_eq_ok.mp split)
    have each := List.forall₂_map_left_iff.mp (mapM_eq_ok.mp parsed)
    have steps : ∃ steps : List Step, groups = steps.map .single ∧
        List.Forall₂ Step.ReadFrom steps texts := by
      clear h split parsed found
      induction each with
      | nil => exact ⟨[], rfl, .nil⟩
      | cons first _ ih =>
        obtain ⟨s, rfl, read⟩ := parseBranch_eq_ok_iff.mp first
        obtain ⟨steps, rfl, later⟩ := ih
        exact ⟨s :: steps, rfl, .cons read later⟩
    obtain ⟨steps, rfl, read⟩ := steps
    refine ⟨steps, rfl, ?_⟩
    rw [← joinWith_of_pieces found]
    exact .of_forall₂ (splits_of_pieces found).ne_nil read
  · rintro ⟨steps, rfl, h⟩
    obtain ⟨texts, found, read⟩ := h.pieces_eq fun _ _ read => read.avoids op
    refine bind_eq_ok.mpr ⟨texts.map trim, mapError_eq_ok.mpr (map_eq_ok.mpr ⟨_, found, rfl⟩),
      mapM_eq_ok.mpr (List.forall₂_map_left_iff.mpr (List.forall₂_map_right_iff.mpr ?_))⟩
    exact read.flip.imp fun text s read => parseBranch_eq_ok_iff.mpr ⟨s, rfl, read⟩

end

/-- **A text is read as a group just when it is one of the group's texts.** -/
theorem Group.parse_eq_ok_iff {segment : List Char} {g : Group} :
    Group.parse segment = .ok g ↔ g.WrittenAs segment := by
  constructor
  · intro h
    obtain ⟨parallel, hp, h⟩ := bind_eq_ok.mp h
    obtain ⟨fallback, hf, h⟩ := bind_eq_ok.mp h
    have two {op : Operator} {steps : List Step} (chain : Chain op Step.ReadFrom steps segment)
        (occurs : (occurs op segment).mapError ParseError.scan = .ok true) :
        2 ≤ steps.length := by
      rw [mapError_eq_ok, occurs_of_chain chain] at occurs
      exact of_decide_eq_true (Except.ok.inj occurs)
    split at h
    · cases h
    · obtain ⟨groups, branches, h⟩ := bind_eq_ok.mp h
      cases h
      obtain ⟨steps, rfl, chain⟩ := parseBranches_eq_ok_iff.mp branches
      exact .parallel (two chain hp) chain
    · obtain ⟨groups, branches, h⟩ := bind_eq_ok.mp h
      cases h
      obtain ⟨steps, rfl, chain⟩ := parseBranches_eq_ok_iff.mp branches
      exact .fallback (two chain hf) chain
    · obtain ⟨s, parsed, h⟩ := bind_eq_ok.mp h
      cases h
      exact .single parsed
  · intro h
    cases h with
    | single read =>
      refine bind_eq_ok.mpr ⟨false, mapError_eq_ok.mpr (read.avoids .parallel).occurs_eq, ?_⟩
      refine bind_eq_ok.mpr ⟨false, mapError_eq_ok.mpr (read.avoids .fallback).occurs_eq, ?_⟩
      exact bind_eq_ok.mpr ⟨_, read, rfl⟩
    | parallel two chain =>
      have here := occurs_of_chain chain
      rw [decide_eq_true two] at here
      have other : Enclosed Operator.fallback.avoids segment := avoids_of_chain chain (by decide)
      refine bind_eq_ok.mpr ⟨true, mapError_eq_ok.mpr here, ?_⟩
      refine bind_eq_ok.mpr ⟨false, mapError_eq_ok.mpr other.occurs_eq, ?_⟩
      exact bind_eq_ok.mpr ⟨_, parseBranches_eq_ok_iff.mpr ⟨_, rfl, chain⟩, rfl⟩
    | fallback two chain =>
      have here := occurs_of_chain chain
      rw [decide_eq_true two] at here
      have other : Enclosed Operator.parallel.avoids segment := avoids_of_chain chain (by decide)
      refine bind_eq_ok.mpr ⟨false, mapError_eq_ok.mpr other.occurs_eq, ?_⟩
      refine bind_eq_ok.mpr ⟨true, mapError_eq_ok.mpr here, ?_⟩
      exact bind_eq_ok.mpr ⟨_, parseBranches_eq_ok_iff.mpr ⟨_, rfl, chain⟩, rfl⟩

theorem Group.ignoresBlanks_writtenAs : IgnoresBlanks Group.WrittenAs where
  nonblank h := by
    cases h with
    | single read => exact Step.ignoresBlanks_readFrom.nonblank read
    | parallel _ chain => exact Step.ignoresBlanks_readFrom.chain.nonblank chain
    | fallback _ chain => exact Step.ignoresBlanks_readFrom.chain.nonblank chain
  congr same h := by
    cases h with
    | single read => exact .single (Step.ignoresBlanks_readFrom.congr same read)
    | parallel two chain => exact .parallel two (Step.ignoresBlanks_readFrom.chain.congr same chain)
    | fallback two chain => exact .fallback two (Step.ignoresBlanks_readFrom.chain.congr same chain)

/-- The operator of sequences does not split a group. -/
theorem Group.WrittenAs.avoids {g : Group} {text : List Char} (h : g.WrittenAs text) :
    Enclosed Operator.sequence.avoids text := by
  cases h with
  | single read => exact read.avoids .sequence
  | parallel _ chain => exact avoids_of_chain chain (by decide)
  | fallback _ chain => exact avoids_of_chain chain (by decide)

/-! ## Pipelines -/

/-- Trimmed texts one after another are read as groups just when they are texts of the groups. -/
theorem parseSegments_eq_ok_iff {texts : List (List Char)} {position : Nat}
    {groups : List Group} :
    parseSegments position (texts.map trim) = .ok groups ↔
      List.Forall₂ Group.WrittenAs groups texts := by
  have trimmed {g : Group} {text : List Char} : g.WrittenAs (trim text) ↔ g.WrittenAs text :=
    ⟨Group.ignoresBlanks_writtenAs.congr (trim_trim text),
      Group.ignoresBlanks_writtenAs.congr (trim_trim text).symm⟩
  induction texts generalizing position groups with
  | nil =>
    rw [List.forall₂_nil_right_iff]
    exact ⟨fun h => (Except.ok.inj h).symm, fun h => congrArg Except.ok h.symm⟩
  | cons text texts ih =>
    rw [List.map_cons, parseSegments, List.forall₂_cons_right_iff]
    constructor
    · intro h
      split at h
      · cases h
      · obtain ⟨g, parsed, h⟩ := bind_eq_ok.mp h
        obtain ⟨others, later, h⟩ := bind_eq_ok.mp h
        cases h
        exact ⟨g, others, trimmed.mp (Group.parse_eq_ok_iff.mp parsed), ih.mp later, rfl⟩
    · rintro ⟨g, others, written, later, rfl⟩
      rw [if_neg fun none =>
        Group.ignoresBlanks_writtenAs.nonblank written (List.isEmpty_iff.mp none)]
      refine bind_eq_ok.mpr ⟨g, Group.parse_eq_ok_iff.mpr (trimmed.mpr written), ?_⟩
      exact bind_eq_ok.mpr ⟨others, ih.mpr later, rfl⟩

/-- **A text that is read as a pipeline is one of the pipeline's texts.** -/
theorem Pipeline.writtenAs_of_parse {cs : List Char} {p : Pipeline}
    (h : Pipeline.parse cs = .ok p) : p.WrittenAs cs := by
  obtain ⟨segments, split, h⟩ := bind_eq_ok.mp h
  obtain ⟨groups, parsed, h⟩ := bind_eq_ok.mp h
  cases h
  obtain ⟨texts, found, rfl⟩ := map_eq_ok.mp (mapError_eq_ok.mp split)
  rw [WrittenAs, ← joinWith_of_pieces found]
  exact .of_forall₂ (splits_of_pieces found).ne_nil (parseSegments_eq_ok_iff.mp parsed)

/-- **A text of a pipeline is read as the pipeline.** -/
theorem Pipeline.WrittenAs.parse_eq {cs : List Char} {p : Pipeline} (h : p.WrittenAs cs) :
    Pipeline.parse cs = .ok p := by
  obtain ⟨texts, found, written⟩ := Chain.pieces_eq h fun _ _ written => written.avoids
  refine bind_eq_ok.mpr ⟨texts.map trim, mapError_eq_ok.mpr (map_eq_ok.mpr ⟨_, found, rfl⟩), ?_⟩
  exact bind_eq_ok.mpr ⟨p.groups, parseSegments_eq_ok_iff.mpr written, rfl⟩

/-! ## Rejected segments -/

/-- A part of a text between top-level operators of sequences. -/
def HasSegment (cs segment : List Char) : Prop :=
  ∃ segments, splitTopLevel .sequence cs = .ok segments ∧ segment ∈ segments

/-- A segment with both other operators at top level. -/
def IsMixed (segment : List Char) : Prop :=
  occurs .parallel segment = .ok true ∧ occurs .fallback segment = .ok true

/-- A segment that another operator splits into branches, one of which is blank. -/
def HasEmptyBranch (segment : List Char) : Prop :=
  ∃ op branches, op ≠ .sequence ∧ splitTopLevel op segment = .ok branches ∧
    2 ≤ branches.length ∧ [] ∈ branches

/-- A text without an operator at top level is one part. -/
theorem splitTopLevel_of_avoids {op : Operator} {text : List Char}
    (h : Enclosed op.avoids text) : splitTopLevel op text = .ok [trim text] := by
  rw [splitTopLevel, h.pieces_eq]
  rfl

/-- The parts of a chain are texts of what is in it. -/
theorem Chain.written_of_mem {α : Type} {op : Operator} {written : α → List Char → Prop}
    {as : List α} {cs : List Char} {parts : List (List Char)} (ignores : IgnoresBlanks written)
    (h : Chain op written as cs) (each : ∀ a text, written a text → Enclosed op.avoids text)
    (split : splitTopLevel op cs = .ok parts) {part : List Char} (mem : part ∈ parts) :
    ∃ a ∈ as, written a part := by
  obtain ⟨texts, found, related⟩ := h.pieces_eq each
  rw [splitTopLevel, found] at split
  cases split
  obtain ⟨text, memText, rfl⟩ := List.mem_map.mp mem
  obtain ⟨a, memA, first⟩ := exists_left_of_mem related memText
  exact ⟨a, memA, ignores.congr (trim_trim text).symm first⟩

namespace Group.WrittenAs

variable {g : Group} {text : List Char}

theorem not_isMixed (h : g.WrittenAs text) : ¬IsMixed text := by
  rintro ⟨parallel, fallback⟩
  have missing {op : Operator} (avoids : Enclosed op.avoids text)
      (found : occurs op text = .ok true) : False := by
    rw [avoids.occurs_eq] at found
    cases found
  cases h with
  | single read => exact missing (read.avoids .parallel) parallel
  | parallel _ chain => exact missing (avoids_of_chain chain (by decide)) fallback
  | fallback _ chain => exact missing (avoids_of_chain chain (by decide)) parallel

theorem not_hasEmptyBranch (h : g.WrittenAs text) : ¬HasEmptyBranch text := by
  rintro ⟨op, branches, notSequence, split, two, empty⟩
  have notOther (avoids : Enclosed op.avoids text) : False := by
    rw [splitTopLevel_of_avoids avoids] at split
    cases split
    simp at two
  have notOwn {steps : List Step} (chain : Chain op Step.ReadFrom steps text) : False := by
    obtain ⟨s, -, read⟩ := chain.written_of_mem Step.ignoresBlanks_readFrom
      (fun _ _ read => read.avoids op) split empty
    exact Step.ignoresBlanks_readFrom.nonblank read rfl
  cases h with
  | single read => exact notOther (read.avoids op)
  | parallel _ chain =>
    cases op with
    | sequence => exact notSequence rfl
    | parallel => exact notOwn chain
    | fallback => exact notOther (avoids_of_chain chain (by decide))
  | fallback _ chain =>
    cases op with
    | sequence => exact notSequence rfl
    | parallel => exact notOther (avoids_of_chain chain (by decide))
    | fallback => exact notOwn chain

end Group.WrittenAs

/-! ## Results -/

/-- **A text is read as a pipeline just when it is one of the pipeline's texts**: groups one after
another with the operator of sequences between them, each of them a step or at least two steps
with one other operator between them. Operators in literals and brackets split nothing, and are
the only ones in a step. A text with a segment that has both other operators, or an empty branch,
is read as no pipeline. -/
theorem Pipeline.parse_iff_composed (cs : List Char) (p : Pipeline) :
    (Pipeline.parse cs = .ok p ↔ p.WrittenAs cs) ∧
      (∀ (op : Operator) (text : List Char), Enclosed op.avoids text →
        splitTopLevel op text = .ok [trim text]) ∧
      (∀ (s : Step) (text : List Char) (op : Operator), s.ReadFrom text →
        Enclosed op.avoids text) ∧
      ∀ segment, HasSegment cs segment → IsMixed segment ∨ HasEmptyBranch segment →
        Pipeline.parse cs ≠ .ok p := by
  refine ⟨⟨Pipeline.writtenAs_of_parse, Pipeline.WrittenAs.parse_eq⟩,
    fun _ _ => splitTopLevel_of_avoids, fun _ _ op read => read.avoids op, ?_⟩
  rintro segment ⟨segments, split, mem⟩ rejected parsed
  have written : Chain .sequence Group.WrittenAs p.groups cs := Pipeline.writtenAs_of_parse parsed
  obtain ⟨g, -, isGroup⟩ := written.written_of_mem Group.ignoresBlanks_writtenAs
    (fun _ _ h => h.avoids) split mem
  rcases rejected with mixed | emptyBranch
  · exact isGroup.not_isMixed mixed
  · exact isGroup.not_hasEmptyBranch emptyBranch

example : Pipeline.parse "[a:b](\"x >> y\") & [c:d](p ?? q) >> [e:f]".toList =
    .ok ⟨[.parallel [.single ⟨"a", "b", some "x >> y", []⟩, .single ⟨"c", "d", some "p ?? q", []⟩],
      .single ⟨"e", "f", none, []⟩]⟩ := by decide +kernel

end CapabilityPipeline
