import CapabilityPipeline.Proofs.Program.Layout

/-!
# Canonical texts are read back

A program without doubles is read back from its canonical text as it is. So the well-formed
programs are those that some text is read as.

Results:

* `Program.parse_render_of_wellFormed`: a well-formed program is read back from its text.
* `Program.parse_render`: so is every program that was read from some text.
* `Program.exists_parse_iff`: the programs that some text is read as are the well-formed ones.
-/

namespace CapabilityPipeline

open Source Text

theorem Group.reread_of_isIntegral {g : Group} (h : g.WellFormed)
    (hi : ∀ s ∈ g.steps, s.IsIntegral) : g.reread = g := by
  have same {steps : List Step} (hi : ∀ s ∈ branchSteps (steps.map .single), s.IsIntegral) :
      rereadBranches (steps.map .single) = steps.map .single := by
    rw [branchSteps_single] at hi
    rw [rereadBranches_single, List.map_map]
    exact List.map_congr_left fun s hs => congrArg single (Step.reread_of_isIntegral (hi s hs)).2
  cases h with
  | @single step h =>
    rw [steps, List.forall_mem_singleton] at hi
    rw [reread, (Step.reread_of_isIntegral hi).2]
  | parallel two h =>
    rw [steps] at hi
    rw [reread, same hi]
  | fallback two h =>
    rw [steps] at hi
    rw [reread, same hi]

namespace Program

/-- All numbers in the parameters of a program are integers. -/
def IsIntegral (p : Program) : Prop :=
  (∀ b ∈ p.bindings, b.step.IsIntegral) ∧ ∀ s ∈ p.steps, s.IsIntegral

instance (p : Program) : Decidable p.IsIntegral := instDecidableAnd

theorem IsIntegral.isFinite {p : Program} (hi : p.IsIntegral) : p.IsFinite :=
  ⟨fun b hb => (Step.reread_of_isIntegral (hi.1 b hb)).1,
    fun s hs => (Step.reread_of_isIntegral (hi.2 s hs)).1⟩

/-- A program without doubles is not changed by reading its numbers back. -/
theorem reread_of_isIntegral {p : Program} (h : p.WellFormed) (hi : p.IsIntegral) :
    p.reread = p := by
  obtain ⟨bindings, pipelines⟩ := p
  have sameBindings : bindings.map Binding.reread = bindings := by
    refine (List.map_congr_left fun b hb => ?_).trans (List.map_id bindings)
    rw [Binding.reread, (Step.reread_of_isIntegral (hi.1 b hb)).2]
    rfl
  have samePipelines : pipelines.map Pipeline.reread = pipelines := by
    refine (List.map_congr_left fun p hp => ?_).trans (List.map_id pipelines)
    have groups : p.groups.map Group.reread = p.groups := by
      refine (List.map_congr_left fun g hg => ?_).trans (List.map_id _)
      exact Group.reread_of_isIntegral ((h.pipelines p hp).groups g hg) fun s hs =>
        hi.2 s (List.mem_flatMap.mpr ⟨p, hp, List.mem_flatMap.mpr ⟨g, hg, hs⟩⟩)
    rw [Pipeline.reread, groups]
    rfl
  rw [reread, sameBindings, samePipelines]

/-- **A well-formed program is read back from its canonical text.** -/
theorem parse_render_of_wellFormed {p : Program} (h : p.WellFormed) (hi : p.IsIntegral) :
    Program.parse p.render = .ok p := by
  rw [parse_render_eq_reread h hi.isFinite, reread_of_isIntegral h hi]

/-- **Every program that was read from a text, and has no doubles, is read back from its
canonical text.** -/
theorem parse_render {code : String} {p : Program} (h : Program.parse code = .ok p)
    (hi : p.IsIntegral) : Program.parse p.render = .ok p :=
  parse_render_of_wellFormed (wellFormed_of_parse h) hi

/-- A comment, a target with operators and brackets, and a statement over two lines. -/
theorem parse_render_mail :
    ∃ p, Program.parse
        "# note\n$a = [m:find](\"b >> # (\")\n[m:send]('$a')\n& [m:log]() \x7b\"n\": [-2]\x7d" =
          .ok p ∧ p.IsIntegral ∧ Program.parse p.render = .ok p := by
  have h : Program.parse
      "# note\n$a = [m:find](\"b >> # (\")\n[m:send]('$a')\n& [m:log]() \x7b\"n\": [-2]\x7d" =
      .ok ⟨[⟨"a", ⟨"m", "find", some "b >> # (", []⟩⟩],
        [⟨[.parallel [.single ⟨"m", "send", some "$a", []⟩,
          .single ⟨"m", "log", none, [("n", .array [.number (.integer (-2) (by decide))])]⟩]]⟩]⟩ := by
    decide +kernel
  exact ⟨_, h, by decide, parse_render h (by decide)⟩

/-- **Reading yields the well-formed programs and no others**, doubles aside. A well-formed program
has its canonical text, and whatever passes the splitting into lines, segments and branches, and
the checks on the way, is well-formed. -/
theorem exists_parse_iff {p : Program} (hi : p.IsIntegral) :
    (∃ code, Program.parse code = .ok p) ↔ p.WellFormed :=
  ⟨fun ⟨_, h⟩ => wellFormed_of_parse h, fun h => ⟨p.render, parse_render_of_wellFormed h hi⟩⟩

/-- Branches with targets full of operators, brackets and quotes. -/
def quoting : Group :=
  .fallback [.single ⟨"m", "log", some "]( >> & \"", []⟩,
    .single ⟨"m", "v1.log-2", some "$a", [("k\n", .array [.object []])]⟩]

/-- Branches of steps can be read, branches of branches cannot. -/
theorem exists_parse_iff_quoting :
    WellFormed ⟨[⟨"a", ⟨"m", "find", none, []⟩⟩], [⟨[quoting]⟩]⟩ ∧
      ¬ ∃ code, Program.parse code = .ok ⟨[⟨"a", ⟨"m", "find", none, []⟩⟩],
        [⟨[.parallel [quoting, quoting]]⟩]⟩ := by
  refine ⟨(exists_parse_iff (by decide)).mp ⟨"$a=[m:find] # [\n" ++
    "[m:log](\"]( >> & \\\"\")??\n[m:v1.log-2]('$a')\x7b\"k\\n\":[\x7b\x7d]\x7d", ?_⟩, fun code => ?_⟩
  · decide +kernel
  · have wellFormed := (exists_parse_iff (by decide)).mp code
    have group := (wellFormed.pipelines _ (List.mem_cons_self ..)).groups _ (List.mem_cons_self ..)
    generalize same : Group.parallel [quoting, quoting] = g at group
    cases group with
    | single => cases same
    | fallback => cases same
    | @parallel steps _ _ =>
      injection same with same
      cases steps <;> cases same

end Program

end CapabilityPipeline
