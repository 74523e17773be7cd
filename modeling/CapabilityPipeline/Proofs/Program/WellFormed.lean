import CapabilityPipeline.Proofs.Names.Lookup
import CapabilityPipeline.Proofs.Program.PipelineGrammar

/-!
# Well-formed programs

What a program text can describe is less than what a program can hold: groups do not nest, names
are identifiers, each variable is assigned once and before it is used, and no number is infinite.

Results:

* `Program.WellFormed`: the programs that have a text.
* `Program.wellFormed_of_parse`: a program that was read is well-formed.
* `Program.isFinite_of_parse`: its numbers are finite.
-/

namespace CapabilityPipeline

open Json (Value)
open Source (Operator)

/-! ## Definitions -/

/-- A step that has a text. -/
structure Step.WellFormed (s : Step) : Prop where
  domain : isIdentifier s.domain.toList = true
  action : isIdentifier s.action.toList = true
  distinct : (Value.object s.params).Distinct
  depth : (Value.object s.params).depth ≤ Json.maxDepth

/-- No number in the parameters is infinite or undefined. -/
def Step.IsFinite (s : Step) : Prop := Value.membersFinite s.params = true

/-- The step was read from some text. -/
def Step.IsRead (s : Step) : Prop := ∃ cs, Step.parse cs = .ok s

/-- A group that has a text: a step, or an operator between at least two steps. -/
inductive Group.WellFormed : Group → Prop
  | single {step : Step} (h : step.WellFormed) : WellFormed (.single step)
  | parallel {steps : List Step} (two : 2 ≤ steps.length) (h : ∀ s ∈ steps, s.WellFormed) :
      WellFormed (.parallel (steps.map .single))
  | fallback {steps : List Step} (two : 2 ≤ steps.length) (h : ∀ s ∈ steps, s.WellFormed) :
      WellFormed (.fallback (steps.map .single))

/-- A pipeline that has a text. -/
structure Pipeline.WellFormed (p : Pipeline) : Prop where
  nonempty : p.groups ≠ []
  groups : ∀ g ∈ p.groups, g.WellFormed

/-- The names that a program assigns. -/
def Program.names (p : Program) : List String :=
  p.bindings.map Binding.name

/-- A program that may follow statements that assign the known names. -/
structure Program.WellFormedAfter (known : NameSet) (p : Program) : Prop where
  valid : ∀ b ∈ p.bindings, isVariableName b.name.toList = true
  distinct : p.names.Nodup
  fresh : ∀ b ∈ p.bindings, known.contains b.name = false
  bindings : ∀ b ∈ p.bindings, b.step.WellFormed
  /-- A binding mentions names assigned before it. -/
  earlier : ∀ before b after, p.bindings = before ++ b :: after → ∀ name ∈ b.step.mentions.keys,
    known.contains name = true ∨ name ∈ before.map Binding.name
  pipelines : ∀ pipeline ∈ p.pipelines, pipeline.WellFormed
  /-- Pipelines mention assigned names. -/
  assigned : ∀ step ∈ p.steps, ∀ name ∈ step.mentions.keys,
    known.contains name = true ∨ name ∈ p.names

/-- A program that has a text. -/
structure Program.WellFormed (p : Program) : Prop extends p.WellFormedAfter .empty where
  nonempty : p.bindings ≠ [] ∨ p.pipelines ≠ []

/-! ## Steps -/

theorem ParamsText.valid {text : List Char} {params : Json.Object} (h : ParamsText text params) :
    (Value.object params).Distinct ∧ (Value.object params).depth ≤ Json.maxDepth ∧
      Value.membersFinite params = true := by
  cases h with
  | absent =>
    simp [Value.Distinct, Value.MembersDistinct, Value.depth, Value.membersDepth, Json.maxDepth,
      Value.membersFinite]
  | present read =>
    exact ⟨Value.distinct_of_read read, Value.depth_of_read read, Value.isFinite_of_read read⟩

/-- A step that was read is well-formed, and its numbers are finite. -/
theorem Step.IsRead.valid {s : Step} (h : s.IsRead) : s.WellFormed ∧ s.IsFinite := by
  obtain ⟨cs, h⟩ := h
  obtain ⟨header, _, _, _, params, ⟨domain, action, -⟩, -, -, -, isParams, -⟩ :=
    Step.writtenAs_of_parse h
  obtain ⟨distinct, depth, finite⟩ := isParams.valid
  exact ⟨⟨domain, action, distinct, depth⟩, finite⟩

/-! ## Groups and pipelines -/

theorem branchSteps_single (steps : List Step) :
    Group.branchSteps (steps.map .single) = steps := by
  induction steps with
  | nil => rfl
  | cons s rest ih => rw [List.map_cons, Group.branchSteps, ih, Group.steps, List.singleton_append]

/-- The steps that an operator joins were read. -/
theorem Chain.isRead {op : Operator} {steps : List Step} {text : List Char}
    (h : Chain op Step.ReadFrom steps text) : ∀ s ∈ steps, s.IsRead :=
  fun _ hs => h.exists_text hs

/-- A group that has a text is well-formed, and its steps were read. -/
theorem Group.WrittenAs.valid {g : Group} {text : List Char} (h : g.WrittenAs text) :
    g.WellFormed ∧ ∀ s ∈ g.steps, s.IsRead := by
  cases h with
  | single read =>
    have isRead : Step.IsRead _ := ⟨_, read⟩
    rw [Group.steps]
    exact ⟨.single isRead.valid.1, List.forall_mem_singleton.mpr isRead⟩
  | parallel two chain =>
    rw [Group.steps, branchSteps_single]
    exact ⟨.parallel two fun s hs => (chain.isRead s hs).valid.1, chain.isRead⟩
  | fallback two chain =>
    rw [Group.steps, branchSteps_single]
    exact ⟨.fallback two fun s hs => (chain.isRead s hs).valid.1, chain.isRead⟩

/-- A pipeline that was read is well-formed, and its steps were read. -/
theorem Pipeline.wellFormed_of_parse {cs : List Char} {p : Pipeline}
    (h : Pipeline.parse cs = .ok p) :
    p.WellFormed ∧ ∀ s ∈ p.groups.flatMap Group.steps, s.IsRead := by
  have written : Chain .sequence Group.WrittenAs p.groups cs := writtenAs_of_parse h
  have valid : ∀ g ∈ p.groups, g.WellFormed ∧ ∀ s ∈ g.steps, s.IsRead := by
    intro g hg
    obtain ⟨text, isText⟩ := written.exists_text hg
    exact isText.valid
  refine ⟨⟨written.ne_nil, fun g hg => (valid g hg).1⟩, fun s hs => ?_⟩
  obtain ⟨g, hg, hs⟩ := List.mem_flatMap.mp hs
  exact (valid g hg).2 s hs

/-! ## Statements -/

theorem checkReferences_eq_ok {known : NameSet} {step : Step} :
    checkReferences known step = .ok () ↔
      ∀ name ∈ step.mentions.keys, known.contains name = true := by
  unfold checkReferences
  split
  · next name found =>
    constructor
    · intro h
      cases h
    · intro h
      have unknown := List.find?_some found
      rw [h name (List.mem_of_find?_eq_some found)] at unknown
      cases unknown
  · next none =>
    refine ⟨fun _ name hname => ?_, fun _ => rfl⟩
    have := List.find?_eq_none.mp none name hname
    simpa using this

theorem isVariableName_of_splitAssignment {cs value : List Char} {name : String}
    (h : splitAssignment cs = .ok (some (name, value))) : isVariableName name.toList = true := by
  unfold splitAssignment at h
  split at h
  · split at h
    · cases h
    · dsimp only at h
      split at h
      · cases h
      · next valid =>
        split at h
        · cases h
        · cases h
          rw [String.toList_ofList]
          simpa using valid
  · cases h

/-- What a statement that was read adds after known names. -/
theorem parseStatement_eq_ok {known : NameSet} {cs : List Char} {item : Item}
    (h : parseStatement known cs = .ok item) :
    match item with
    | .binding b => isVariableName b.name.toList = true ∧ known.contains b.name = false ∧
        b.step.IsRead ∧ ∀ name ∈ b.step.mentions.keys, known.contains name = true
    | .pipeline p => p.WellFormed ∧ (∀ step ∈ p.groups.flatMap Group.steps, step.IsRead) ∧
        ∀ step ∈ p.groups.flatMap Group.steps,
          ∀ name ∈ step.mentions.keys, known.contains name = true := by
  obtain ⟨assignment, hsplit, h⟩ := bind_eq_ok.mp h
  split at h
  · next name value =>
    split at h
    · cases h
    next fresh =>
    obtain ⟨_, -, h⟩ := bind_eq_ok.mp h
    obtain ⟨step, parsed, h⟩ := bind_eq_ok.mp h
    obtain ⟨_, known, h⟩ := bind_eq_ok.mp h
    cases h
    exact ⟨isVariableName_of_splitAssignment hsplit, by simpa using fresh,
      ⟨_, parsed⟩, checkReferences_eq_ok.mp known⟩
  · obtain ⟨pipeline, parsed, h⟩ := bind_eq_ok.mp h
    obtain ⟨_, known, h⟩ := bind_eq_ok.mp h
    cases h
    obtain ⟨wellFormed, read⟩ := Pipeline.wellFormed_of_parse parsed
    exact ⟨wellFormed, read, fun step hs => checkReferences_eq_ok.mp (forM_eq_ok.mp known step hs)⟩

/-! ## Programs -/

namespace Program

theorem WellFormedAfter.nil (known : NameSet) : WellFormedAfter known ⟨[], []⟩ where
  valid := fun _ h => by cases h
  distinct := List.nodup_nil
  fresh := fun _ h => by cases h
  bindings := fun _ h => by cases h
  earlier := fun before b after h => by simp at h
  pipelines := fun _ h => by cases h
  assigned := fun _ h => by cases h

/-- A binding before a program. -/
theorem WellFormedAfter.cons {known : NameSet} {p : Program} {b : Binding}
    (h : p.WellFormedAfter (known.add b.name)) (valid : isVariableName b.name.toList = true)
    (fresh : known.contains b.name = false) (step : b.step.WellFormed)
    (mentions : ∀ name ∈ b.step.mentions.keys, known.contains name = true) :
    WellFormedAfter known { p with bindings := b :: p.bindings } where
  valid := List.forall_mem_cons.mpr ⟨valid, h.valid⟩
  distinct := by
    refine List.nodup_cons.mpr ⟨fun again => ?_, h.distinct⟩
    obtain ⟨b', hb', same⟩ := List.mem_map.mp again
    have unknown := h.fresh b' hb'
    rw [(NameSet.contains_add known b.name b'.name).mpr (.inl same)] at unknown
    cases unknown
  fresh := by
    refine List.forall_mem_cons.mpr ⟨fresh, fun b' hb' => ?_⟩
    rw [Bool.eq_false_iff]
    intro already
    have unknown := h.fresh b' hb'
    rw [(NameSet.contains_add known b.name b'.name).mpr (.inr already)] at unknown
    cases unknown
  bindings := List.forall_mem_cons.mpr ⟨step, h.bindings⟩
  earlier := by
    intro before b' after split name hname
    cases before with
    | nil =>
      cases split
      exact .inl (mentions name hname)
    | cons first before =>
      obtain ⟨rfl, later⟩ := List.cons.inj split
      rcases h.earlier before b' after later name hname with already | later
      · rcases (NameSet.contains_add known b.name name).mp already with rfl | already
        · exact .inr (List.mem_cons_self ..)
        · exact .inl already
      · exact .inr (List.mem_cons_of_mem _ later)
  pipelines := h.pipelines
  assigned := by
    intro step hstep name hname
    rcases h.assigned step hstep name hname with already | later
    · rcases (NameSet.contains_add known b.name name).mp already with rfl | already
      · exact .inr (List.mem_cons_self ..)
      · exact .inl already
    · exact .inr (List.mem_cons_of_mem _ later)

/-- A pipeline before the pipelines of a program. -/
theorem WellFormedAfter.consPipeline {known : NameSet} {p : Program} {pipeline : Pipeline}
    (h : p.WellFormedAfter known) (wellFormed : pipeline.WellFormed)
    (mentions : ∀ step ∈ pipeline.groups.flatMap Group.steps, ∀ name ∈ step.mentions.keys,
      known.contains name = true) :
    WellFormedAfter known { p with pipelines := pipeline :: p.pipelines } where
  valid := h.valid
  distinct := h.distinct
  fresh := h.fresh
  bindings := h.bindings
  earlier := h.earlier
  pipelines := List.forall_mem_cons.mpr ⟨wellFormed, h.pipelines⟩
  assigned := by
    intro step hstep name hname
    rw [steps, List.flatMap_cons, List.mem_append] at hstep
    rcases hstep with first | later
    · exact .inl (mentions step first name hname)
    · exact h.assigned step later name hname

/-- All steps of a program were read from some text. -/
def IsRead (p : Program) : Prop :=
  (∀ b ∈ p.bindings, b.step.IsRead) ∧ ∀ s ∈ p.steps, s.IsRead

/-- No number in the parameters of a program is infinite or undefined. -/
def IsFinite (p : Program) : Prop :=
  (∀ b ∈ p.bindings, b.step.IsFinite) ∧ ∀ s ∈ p.steps, s.IsFinite

theorem of_parseStatements {statements : List Source.Statement} {known : NameSet} {p : Program}
    (h : parseStatements known statements = .ok p) :
    p.WellFormedAfter known ∧ p.IsRead ∧
      (statements ≠ [] → p.bindings ≠ [] ∨ p.pipelines ≠ []) := by
  induction statements generalizing known p with
  | nil =>
    cases h
    refine ⟨.nil known, ⟨fun _ none => ?_, fun _ none => ?_⟩, fun h => absurd rfl h⟩ <;> cases none
  | cons statement rest ih =>
    obtain ⟨item, parsed, h⟩ := bind_eq_ok.mp h
    have meaning := parseStatement_eq_ok (mapError_eq_ok.mp parsed)
    cases item with
    | binding b =>
      obtain ⟨program, later, h⟩ := bind_eq_ok.mp h
      cases h
      obtain ⟨valid, fresh, read, mentions⟩ := meaning
      obtain ⟨wellFormed, others, -⟩ := ih later
      exact ⟨wellFormed.cons valid fresh read.valid.1 mentions,
        ⟨List.forall_mem_cons.mpr ⟨read, others.1⟩, others.2⟩, fun _ => .inl (List.cons_ne_nil _ _)⟩
    | pipeline pipeline =>
      obtain ⟨program, later, h⟩ := bind_eq_ok.mp h
      cases h
      obtain ⟨valid, read, mentions⟩ := meaning
      obtain ⟨wellFormed, others, -⟩ := ih later
      refine ⟨wellFormed.consPipeline valid mentions, ⟨others.1, fun s hs => ?_⟩,
        fun _ => .inr (List.cons_ne_nil _ _)⟩
      rw [steps, List.flatMap_cons, List.mem_append] at hs
      exact hs.elim (read s) (others.2 s)

theorem of_parse {code : String} {p : Program} (h : Program.parse code = .ok p) :
    p.WellFormed ∧ p.IsRead := by
  unfold Program.parse at h
  split at h
  · cases h
  · next statements nonempty =>
    obtain ⟨wellFormed, read, some⟩ := of_parseStatements h
    exact ⟨{ wellFormed with nonempty := some nonempty }, read⟩

/-- **A program that was read is well-formed.** -/
theorem wellFormed_of_parse {code : String} {p : Program} (h : Program.parse code = .ok p) :
    p.WellFormed :=
  (of_parse h).1

/-- **The numbers of a program that was read are finite.** -/
theorem isFinite_of_parse {code : String} {p : Program} (h : Program.parse code = .ok p) :
    p.IsFinite := by
  obtain ⟨-, bindings, steps⟩ := of_parse h
  exact ⟨fun b hb => (bindings b hb).valid.2, fun s hs => (steps s hs).valid.2⟩

end Program

end CapabilityPipeline
