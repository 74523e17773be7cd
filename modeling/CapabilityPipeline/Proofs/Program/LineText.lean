import CapabilityPipeline.Proofs.Program.Accepted
import CapabilityPipeline.Proofs.Program.StepText

/-!
# Statements on one line

A group or a pipeline may be written on one line with any blanks around its operators. It goes
through the scanners of brackets and operators and through the reader of JSON. All of them pass
over what targets and parameters contain, so that reading gives the group or the pipeline again.

Results:

* `Group.LaidOut`, `Pipeline.LaidOut`: the texts with spacing of some kind around operators.
* `Pipeline.parse_laidOut`: they are read back if they are on one line.
* `Pipeline.parseStatement_laidOut`, `Binding.parseStatement_chars`: so are statements.
-/

namespace CapabilityPipeline

open Source Text

/-! ## Lines -/

/-- A line of canonical text. -/
structure IsLine (cs : List Char) : Prop where
  balanced : Balanced (fun _ => true) cs
  first : ∃ c rest, cs = c :: rest ∧ (c = '[' ∨ c = '$')
  last : ∃ front b, cs = front ++ [Bracket.closer b]

theorem IsLine.tidy {cs : List Char} (h : IsLine cs) : Tidy cs := by
  obtain ⟨c, rest, start, hc⟩ := h.first
  obtain ⟨front, b, stop⟩ := h.last
  refine ⟨⟨c, rest, start, ?_⟩, ⟨front, b.closer, stop, by cases b <;> rfl⟩⟩
  rcases hc with rfl | rfl <;> rfl

theorem IsLine.append {a b separator : List Char} (ha : IsLine a) (hb : IsLine b)
    (hs : Balanced (fun _ => true) separator) : IsLine (a ++ separator ++ b) := by
  obtain ⟨c, rest, start, hc⟩ := ha.first
  obtain ⟨front, bracket, stop⟩ := hb.last
  refine ⟨(ha.balanced.append hs).append hb.balanced,
    ⟨c, rest ++ separator ++ b, by rw [start]; rfl, hc⟩,
    ⟨a ++ separator ++ front, bracket, by rw [stop, List.append_assoc _ front]⟩⟩

/-- A line is a statement of its own. -/
theorem IsLine.isolated {cs : List Char} (h : IsLine cs) : Isolated cs := by
  obtain ⟨front, b, last⟩ := h.last
  exact .of_closed h.tidy h.first ⟨front, b, [], last, blanks_nil⟩ h.balanced.openDepth_eq

/-! ## Groups -/

/-- A text that stands where a group may stand. -/
structure IsSegment (cs : List Char) : Prop extends IsLine cs where
  part : IsPart .sequence cs
  bracket : ∃ rest, cs = '[' :: rest

theorem Step.isLine_chars {s : Step} (h : s.WellFormed) : IsLine s.chars where
  balanced := (balanced_chars h).mono fun _ _ => rfl
  first := ⟨'[', _, (chars_eq s).trans rfl, .inl rfl⟩
  last := by
    obtain ⟨b, front, same⟩ := (tidy_chars s).2
    exact ⟨front, b, same⟩

theorem Step.isPart_chars {s : Step} (h : s.WellFormed) (op : Operator) : IsPart op s.chars where
  balanced := (balanced_chars h).mono fun _ => avoids_of_isOperand op
  tidy := (tidy_chars s).1

theorem Step.isSegment_chars {s : Step} (h : s.WellFormed) : IsSegment s.chars where
  toIsLine := isLine_chars h
  part := isPart_chars h .sequence
  bracket := ⟨_, (chars_eq s).trans rfl⟩

theorem balanced_separates {op : Operator} (other : Operator) (different : op ≠ other)
    {separator : List Char} (h : Separates Padding op separator) :
    Balanced other.avoids separator := by
  obtain ⟨left, right, hl, hr, rfl⟩ := h
  have symbol : Balanced other.avoids op.symbol := by
    refine .of_all ?_
    cases op <;> cases other <;> first | exact absurd rfl different | decide
  have avoids {blanks : List Char} (h : Padding blanks) : Balanced other.avoids blanks :=
    h.balanced.mono fun _ => avoids_of_isOperand other
  exact ((avoids hl).append symbol).append (avoids hr)

theorem balanced_separates_any {op : Operator} {separator : List Char}
    (h : Separates Padding op separator) : Balanced (fun _ => true) separator := by
  -- each operator differs from some other
  cases op with
  | sequence => exact (balanced_separates .parallel (by decide) h).mono fun _ _ => rfl
  | parallel => exact (balanced_separates .sequence (by decide) h).mono fun _ _ => rfl
  | fallback => exact (balanced_separates .sequence (by decide) h).mono fun _ _ => rfl

theorem branchChars_single (steps : List Step) :
    Group.branchChars (steps.map .single) = steps.map Step.chars := by
  induction steps with
  | nil => rfl
  | cons s rest ih => rw [List.map_cons, Group.branchChars, ih, Group.chars, List.map_cons]

section Branches

variable {steps : List Step} (h : ∀ s ∈ steps, s.WellFormed) {op : Operator} {cs : List Char}
  (laid : Joined (Separates Padding op) (steps.map Step.chars) cs)

include h laid in
theorem isSegment_branches (different : op ≠ .sequence) : IsSegment cs := by
  refine laid.induction (fun a separator b hs ha hb => ?_) fun text ht => ?_
  · refine ⟨ha.toIsLine.append hb.toIsLine (balanced_separates_any hs), ⟨?_, ?_⟩, ?_⟩
    · exact (ha.part.balanced.append (balanced_separates _ different hs)).append hb.part.balanced
    · exact ha.part.tidy.append hb.part.tidy separator
    · obtain ⟨rest, rfl⟩ := ha.bracket
      exact ⟨_, rfl⟩
  · obtain ⟨s, hs, rfl⟩ := List.mem_map.mp ht
    exact Step.isSegment_chars (h s hs)

include h laid in
/-- The text of branches is one of the texts of what its numbers are read as. -/
theorem chain_branches (finite : ∀ s ∈ steps, s.IsFinite) :
    Chain op Step.ReadFrom (steps.map Step.reread) cs := by
  refine .of_joined Step.ignoresBlanks_readFrom laid ?_
  rw [List.forall₂_map_left_iff, List.forall₂_map_right_iff, List.forall₂_same]
  exact fun s hs => Step.parse_chars (h s hs) (finite s hs)

end Branches

namespace Group

mutual

/-- The group with each number as its text is read. -/
def reread : Group → Group
  | single step => single step.reread
  | parallel branches => parallel (rereadBranches branches)
  | fallback branches => fallback (rereadBranches branches)

/-- Branches with each number as its text is read. -/
def rereadBranches : List Group → List Group
  | [] => []
  | branch :: rest => reread branch :: rereadBranches rest

end

theorem rereadBranches_single (steps : List Step) :
    rereadBranches (steps.map .single) = (steps.map Step.reread).map .single := by
  induction steps with
  | nil => rfl
  | cons s rest ih =>
    rw [List.map_cons, rereadBranches, reread, ih, List.map_cons, List.map_cons]

/-- A text is the canonical text of a group, but for the spacing around operators. -/
def LaidOut (spacing : List Char → Prop) : Group → List Char → Prop
  | .single step, cs => cs = step.chars
  | .parallel branches, cs => Joined (Separates spacing .parallel) (branchChars branches) cs
  | .fallback branches, cs => Joined (Separates spacing .fallback) (branchChars branches) cs

theorem isSegment_laidOut {g : Group} (h : g.WellFormed) {cs : List Char}
    (laid : g.LaidOut Padding cs) : IsSegment cs := by
  cases h with
  | @single step h =>
    cases laid
    exact Step.isSegment_chars h
  | @parallel branches two h =>
    rw [LaidOut, branchChars_single] at laid
    exact isSegment_branches h laid (by decide)
  | @fallback branches two h =>
    rw [LaidOut, branchChars_single] at laid
    exact isSegment_branches h laid (by decide)

/-- The texts of a group on one line are among the texts of the group, up to its doubles. -/
theorem writtenAs_laidOut {g : Group} (h : g.WellFormed) (finite : ∀ s ∈ g.steps, s.IsFinite)
    {cs : List Char} (laid : g.LaidOut Padding cs) : g.reread.WrittenAs cs := by
  cases h with
  | @single step h =>
    cases laid
    have finite := finite step (by rw [steps]; exact List.mem_singleton_self step)
    rw [reread]
    exact .single (Step.parse_chars h finite)
  | @parallel branches two h =>
    rw [steps, branchSteps_single] at finite
    rw [LaidOut, branchChars_single] at laid
    have chain := chain_branches h laid finite
    rw [reread, rereadBranches_single]
    exact .parallel (by rw [List.length_map]; exact two) chain
  | @fallback branches two h =>
    rw [steps, branchSteps_single] at finite
    rw [LaidOut, branchChars_single] at laid
    have chain := chain_branches h laid finite
    rw [reread, rereadBranches_single]
    exact .fallback (by rw [List.length_map]; exact two) chain

end Group

/-! ## Pipelines -/

section Segments

variable {groups : List Group} (h : ∀ g ∈ groups, g.WellFormed) {texts : List (List Char)}
  (laid : List.Forall₂ (Group.LaidOut Padding) groups texts)

include h laid in
theorem isSegment_segments : ∀ text ∈ texts, IsSegment text := by
  induction laid with
  | nil => exact fun _ none => by cases none
  | cons first _ ih =>
    obtain ⟨valid, others⟩ := List.forall_mem_cons.mp h
    exact List.forall_mem_cons.mpr ⟨Group.isSegment_laidOut valid first, ih others⟩

include h laid in
theorem writtenAs_segments (finite : ∀ g ∈ groups, ∀ s ∈ g.steps, s.IsFinite) :
    List.Forall₂ Group.WrittenAs (groups.map Group.reread) texts := by
  induction laid with
  | nil => exact .nil
  | cons first _ ih =>
    rw [List.forall_mem_cons] at h finite
    exact .cons (Group.writtenAs_laidOut h.1 finite.1 first) (ih h.2 finite.2)

end Segments

namespace Pipeline

/-- The pipeline with each number as its text is read. -/
def reread (p : Pipeline) : Pipeline := ⟨p.groups.map Group.reread⟩

/-- A text is the canonical text of a pipeline, but for the spacing around operators. -/
def LaidOut (spacing : List Char → Prop) (p : Pipeline) (cs : List Char) : Prop :=
  ∃ texts, List.Forall₂ (Group.LaidOut spacing) p.groups texts ∧
    Joined (Separates spacing .sequence) texts cs

theorem isLine_laidOut {p : Pipeline} (h : p.WellFormed) {cs : List Char}
    (laid : p.LaidOut Padding cs) : IsLine cs ∧ ∃ rest, cs = '[' :: rest := by
  obtain ⟨texts, groups, joined⟩ := laid
  refine joined.induction (motive := fun cs => IsLine cs ∧ ∃ rest, cs = '[' :: rest)
    (fun a separator b hs ha hb => ?_) fun text ht => ?_
  · obtain ⟨rest, rfl⟩ := ha.2
    exact ⟨ha.1.append hb.1 (balanced_separates_any hs), ⟨_, rfl⟩⟩
  · have segment := isSegment_segments h.groups groups text ht
    exact ⟨segment.toIsLine, segment.bracket⟩

/-- **The texts of a pipeline on one line are read as the pipeline**, up to its doubles. -/
theorem parse_laidOut {p : Pipeline} (h : p.WellFormed)
    (finite : ∀ s ∈ p.groups.flatMap Group.steps, s.IsFinite) {cs : List Char}
    (laid : p.LaidOut Padding cs) : Pipeline.parse cs = .ok p.reread := by
  obtain ⟨texts, groups, joined⟩ := laid
  have finite : ∀ g ∈ p.groups, ∀ s ∈ g.steps, s.IsFinite :=
    fun g hg s hs => finite s (List.mem_flatMap.mpr ⟨g, hg, hs⟩)
  exact WrittenAs.parse_eq
    (.of_joined Group.ignoresBlanks_writtenAs joined (writtenAs_segments h.groups groups finite))

end Pipeline

/-! ## Bindings -/

theorem continuesIdentifier_of_isVariableName {name : List Char} (h : isVariableName name = true) :
    ∀ c ∈ name, continuesIdentifier c = true := by
  cases name with
  | nil => exact fun _ h => by cases h
  | cons c rest =>
    rw [isVariableName, Bool.and_eq_true, List.all_eq_true] at h
    refine List.forall_mem_cons.mpr ⟨continuesIdentifier_of_startsName h.1, fun d hd => ?_⟩
    rw [continuesIdentifier, h.2 d hd]
    rfl

theorem tidy_of_isVariableName {name : List Char} (h : isVariableName name = true) :
    Tidy name := by
  have continues := continuesIdentifier_of_isVariableName h
  have nonempty : name ≠ [] := by
    rintro rfl
    cases h
  refine ⟨?_, name.dropLast, name.getLast nonempty, (List.dropLast_append_getLast nonempty).symm,
    isBlank_of_continuesIdentifier (continues _ (List.getLast_mem nonempty))⟩
  obtain ⟨c, rest, rfl⟩ := List.exists_cons_of_ne_nil nonempty
  exact ⟨c, rest, rfl, isBlank_of_continuesIdentifier (continues c (List.mem_cons_self ..))⟩

namespace Binding

variable {b : Binding}

theorem chars_eq (b : Binding) :
    b.chars = '$' :: (b.name.toList ++ [' '] ++ '=' :: (' ' :: b.step.chars)) := by
  simp [chars]

/-- The binding with each number as its text is read. -/
def reread (b : Binding) : Binding := ⟨b.name, b.step.reread⟩

theorem isLine_chars (valid : isVariableName b.name.toList = true) (h : b.step.WellFormed) :
    IsLine b.chars where
  balanced := by
    have name : Balanced (fun _ => true) b.name.toList := .of_plain fun c hc =>
      ⟨(plain_of_class continuesIdentifier (by decide)
        (continuesIdentifier_of_isVariableName valid c hc)).1, rfl⟩
    rw [chars_eq]
    exact .plain rfl rfl ((name.append (.plain rfl rfl .nil)).append
      (.plain rfl rfl (.plain rfl rfl (Step.isLine_chars h).balanced)))
  first := ⟨'$', _, chars_eq b, .inr rfl⟩
  last := by
    obtain ⟨front, bracket, same⟩ := (Step.isLine_chars h).last
    exact ⟨'$' :: (b.name.toList ++ [' '] ++ '=' :: ' ' :: front), bracket,
      by rw [chars_eq, same]; simp⟩

theorem splitAssignment_chars (valid : isVariableName b.name.toList = true) :
    splitAssignment b.chars = .ok (some (b.name, b.step.chars)) := by
  have tidy := tidy_of_isVariableName valid
  have before : ∀ c ∈ b.name.toList ++ [' '], (decide (c ≠ '=')) = true := by
    intro c hc
    rw [decide_eq_true_eq]
    rintro rfl
    rcases List.mem_append.mp hc with name | space
    · exact absurd (continuesIdentifier_of_isVariableName valid _ name) (by decide)
    · exact absurd space (by decide)
  have name := tidy.trim_between blanks_nil blanks_space
  have value := (Step.tidy_chars b.step).1.trim_between blanks_space blanks_nil
  rw [List.nil_append] at name
  rw [List.append_nil, List.singleton_append] at value
  rw [chars_eq]
  unfold splitAssignment
  simp only []
  rw [List.dropWhile_append_of_pos before, List.takeWhile_append_of_pos before,
    List.dropWhile_cons_of_neg (by simp), List.takeWhile_cons_of_neg (by simp), List.append_nil]
  simp only [name, value, valid, Bool.not_true, Bool.false_eq_true, if_false, String.ofList_toList]
  rw [if_neg]
  rw [List.isEmpty_iff]
  exact (Step.tidy_chars b.step).1.ne_nil

theorem checkSingle_chars (name : String) {s : Step} (h : s.WellFormed) (ops : List Operator) :
    checkSingle name s.chars ops = .ok () := by
  induction ops with
  | nil => rfl
  | cons op rest ih =>
    rw [checkSingle, (Step.isPart_chars h op).balanced.occurs_eq]
    exact ih

/-- **The text of a binding is read as the binding**, up to its doubles, where its name is new and
its step mentions known names. -/
theorem parseStatement_chars {known : NameSet} (valid : isVariableName b.name.toList = true)
    (fresh : known.contains b.name = false) (h : b.step.WellFormed) (finite : b.step.IsFinite)
    (mentions : ∀ name ∈ b.step.mentions.keys, known.contains name = true) :
    parseStatement known b.chars = .ok (.binding b.reread) := by
  rw [← Step.mentions_reread] at mentions
  unfold parseStatement
  rw [splitAssignment_chars valid]
  simp only [bind, Except.bind, fresh, Bool.false_eq_true, if_false]
  rw [checkSingle_chars b.name h, Step.parse_chars h finite]
  simp only [checkReferences_eq_ok.mpr mentions]
  rfl

end Binding

theorem Group.mentions_reread {g : Group} (h : g.WellFormed) {s : Step} (hs : s ∈ g.reread.steps) :
    ∃ s' ∈ g.steps, s.mentions = s'.mentions := by
  have branches {steps : List Step}
      (hs : s ∈ Group.branchSteps (Group.rereadBranches (steps.map .single))) :
      ∃ s' ∈ Group.branchSteps (steps.map .single), s.mentions = s'.mentions := by
    rw [rereadBranches_single, branchSteps_single] at hs
    obtain ⟨s', hs', rfl⟩ := List.mem_map.mp hs
    rw [branchSteps_single]
    exact ⟨s', hs', s'.mentions_reread⟩
  cases h with
  | @single step h =>
    rw [reread, steps] at hs
    rw [List.mem_singleton.mp hs, steps]
    exact ⟨step, List.mem_singleton_self step, step.mentions_reread⟩
  | parallel two h =>
    rw [reread, steps] at hs
    rw [steps]
    exact branches hs
  | fallback two h =>
    rw [reread, steps] at hs
    rw [steps]
    exact branches hs

/-- **The texts of a pipeline on one line are read as a statement**, up to its doubles, where its
steps mention known names. -/
theorem Pipeline.parseStatement_laidOut {p : Pipeline} {known : NameSet} (h : p.WellFormed)
    (finite : ∀ s ∈ p.groups.flatMap Group.steps, s.IsFinite)
    (mentions : ∀ step ∈ p.groups.flatMap Group.steps,
      ∀ name ∈ step.mentions.keys, known.contains name = true)
    {cs : List Char} (laid : p.LaidOut Padding cs) :
    parseStatement known cs = .ok (.pipeline p.reread) := by
  have noAssignment : splitAssignment cs = .ok none := by
    obtain ⟨rest, same⟩ := (isLine_laidOut h laid).2
    rw [same]
    rfl
  have checked : (p.reread.groups.flatMap Group.steps).forM (checkReferences known) = .ok () := by
    refine forM_eq_ok.mpr fun step hs => checkReferences_eq_ok.mpr ?_
    obtain ⟨g, hg, hs⟩ := List.mem_flatMap.mp hs
    obtain ⟨g, mem, rfl⟩ := List.mem_map.mp hg
    obtain ⟨step', hs', same⟩ := Group.mentions_reread (h.groups g mem) hs
    rw [same]
    exact mentions step' (List.mem_flatMap.mpr ⟨g, mem, hs'⟩)
  unfold parseStatement
  rw [noAssignment]
  simp only [bind, Except.bind]
  rw [Pipeline.parse_laidOut h finite laid]
  simp only [checked]
  rfl

end CapabilityPipeline
