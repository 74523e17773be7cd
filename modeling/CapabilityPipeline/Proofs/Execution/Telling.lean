import CapabilityPipeline.Proofs.Execution.Advance

/-!
# How a group is told

While a group is run, the engine writes an entry to the log right after the evaluation of a binding
has ended, and at no other time. Moves leave open when entries are written and what they say, and
this says what the engine adds to them.

Results:

* `Trace.entry`: the entry that is written after a trace.
* `Session.Grows`: a trace that grows as the engine makes it grow.
* `Session.runGroup_grows`: the trace of a group that is run.
-/

namespace CapabilityPipeline

open Json (Value)

/-! ## Entries -/

/-- The entry that is written to the log after a trace. -/
def Trace.entry (trace : Trace) (place : Option (Nat × Nat)) (kind label : String)
    (result : Envelope) (time : String) : LogEntry where
  seq := min ((trace.filterMap Event.entry?).length + 1) (wordLimit32 - 1)
  pipeline := place.map Prod.fst
  group := place.map Prod.snd
  kind := kind
  label := label
  success := result.success
  summary := result.summary
  error := result.error
  startedAt := time
  durationMs := 0

/-- Something happens, but no binding ends and nothing is written. -/
def Event.IsQuiet : Event → Prop
  | logged _ => False
  | ended (.binding _) _ => False
  | _ => True

namespace Session

variable {World : Type} {s : Session World}

theorem run_record (place : Option (Nat × Nat)) (kind label : String) (result : Envelope)
    (time : String) (st : RunState World) :
    (Run.record place kind label result time).run st =
      ((), observed st (.logged (st.trace.entry place kind label result time))) := rfl

/-- The entry of a binding. -/
def bindingEntry (s : Session World) (trace : Trace) (b : Binding) (result : Envelope) :
    LogEntry :=
  trace.entry none "binding" s!"${b.name}" result s.time

/-! ## Growing traces -/

/-- A trace grows: when a binding ends its entry is written, and nothing else is. -/
inductive Grows (s : Session World) (start : Trace) : Trace → Prop
  | refl : Grows s start start
  | quiet {trace : Trace} {event : Event} (before : Grows s start trace) (quiet : event.IsQuiet) :
      Grows s start (trace ++ [event])
  | binding {trace : Trace} {index : Nat} {b : Binding} {ending : Ending}
      (before : Grows s start trace) (known : s.bindings[index]? = some b) :
      Grows s start (trace ++ [.ended (.binding index) ending] ++
        [.logged (s.bindingEntry (trace ++ [.ended (.binding index) ending]) b ending.envelope)])

namespace Grows

variable {start mid trace : Trace}

theorem trans (h : s.Grows start mid) (h' : s.Grows mid trace) : s.Grows start trace := by
  induction h' with
  | refl => exact h
  | quiet before quiet ih => exact ih.quiet quiet
  | binding before known ih => exact ih.binding known

theorem quiets (h : s.Grows start trace) {events : Trace} (quiet : ∀ event ∈ events, event.IsQuiet) :
    s.Grows start (trace ++ events) := by
  induction events generalizing trace with
  | nil =>
    rw [List.append_nil]
    exact h
  | cons event rest ih =>
    obtain ⟨first, later⟩ := List.forall_mem_cons.mp quiet
    rw [← List.singleton_append, ← List.append_assoc]
    exact ih (h.quiet first) later

end Grows

/-! ## Steps -/

/-- What an advance of a step adds to the trace. If the step ends, its ending comes last. -/
structure StepGrows (s : Session World) (site : Occurrence) (st : RunState World)
    (p : Option Envelope × RunState World) : Prop where
  still : st.trace.ending? site ≠ none → p.2 = st
  going : p.1 = none → s.Grows st.trace p.2.trace
  ended : ∀ result, p.1 = some result → st.trace.ending? site = none →
    ∃ mid ending, s.Grows st.trace mid ∧ p.2.trace = mid ++ [.ended site ending] ∧
      result = ending.envelope

theorem StepGrows.finish {site : Occurrence} {st mid : RunState World}
    (grows : s.Grows st.trace mid.trace) (unended : st.trace.ending? site = none)
    (ending : Ending) : s.StepGrows site st ((Session.finish site ending).run mid) where
  still := fun ended => absurd unended ended
  going := fun none => by cases none
  ended := by
    intro result same _
    cases same
    exact ⟨mid.trace, ending, grows, rfl, rfl⟩

theorem gather_grows {site : Occurrence} {limit : Nat}
    {force : (index : Nat) → index < limit → Binding → Run World (Option Envelope)}
    (hforce : ∀ index visible binding st, s.bindings[index]? = some binding →
      s.Grows st.trace ((force index visible binding).run st).2.trace)
    (names : List String) (found : NameMap Value) (st : RunState World) :
    s.Grows st.trace ((s.gather site limit force names found).run st).2.trace := by
  induction names generalizing found st with
  | nil => exact .refl
  | cons name rest ih =>
    rw [gather]
    cases same : lastBinding? name s.bindings with
    | none => exact .refl
    | some entry =>
      obtain ⟨index, binding⟩ := entry
      dsimp only
      by_cases visible : index < limit
      · rw [dif_pos visible, run_bind, run_observeOnce]
        have asked : s.Grows st.trace (if .forced site index ∈ st.trace then st
            else observed st (.forced site index)).trace := by
          split
          · exact .refl
          · exact Grows.refl.quiet trivial
        dsimp only
        generalize (if Event.forced site index ∈ st.trace then st
          else observed st (.forced site index)) = st1 at asked ⊢
        have forces := hforce index visible binding st1 (lastBinding?_mem same).1
        rw [run_bind]
        generalize (force index visible binding).run st1 = p at forces ⊢
        obtain ⟨result, st2⟩ := p
        have grows := asked.trans forces
        cases result with
        | none => exact grows
        | some result =>
          dsimp only
          split
          · exact grows.trans (ih _ st2)
          · exact grows
      · rw [dif_neg visible]
        exact .refl

/-- **A step is advanced** with all that it asks for told. -/
theorem advanceStep_grows (limit : Nat) (site : Occurrence) (step : Step)
    (previous : Option Value) (st : RunState World) :
    s.StepGrows site st ((s.advanceStep limit site step previous).run st) := by
  induction limit using Nat.strongRecOn generalizing site step previous st with
  | ind limit ih =>
    rw [advanceStep, run_bind, run_get]
    dsimp only
    cases unended : st.trace.ending? site with
    | some ending =>
      refine ⟨fun _ => rfl, fun none => (by cases none), fun _ _ none => ?_⟩
      rw [unended] at none
      cases none
    | none =>
      cases uncalled : st.trace.call? site with
      | some call =>
        cases answered : st.trace.answer? site with
        | some result => exact .finish .refl unended _
        | none => exact ⟨fun _ => rfl, fun _ => .refl, fun _ some => by cases some⟩
      | none =>
        dsimp only
        rw [run_bind]
        generalize gathered : StateT.run (s.gather site limit _ step.mentions.keys .empty) st = p
        have grows : s.Grows st.trace p.2.trace := by
          rw [← gathered]
          refine gather_grows (fun index visible binding st known => ?_) _ _ st
          rw [run_bind, run_get]
          dsimp only
          cases unended : st.trace.ending? (.binding index) with
          | some ending => exact .refl
          | none =>
            dsimp only
            split
            · have advanced := ih index visible (.binding index) binding.step none st
              rw [run_bind]
              generalize (s.advanceStep index (.binding index) binding.step none).run st = q
                at advanced ⊢
              obtain ⟨result, st1⟩ := q
              cases result with
              | none => exact advanced.going rfl
              | some result =>
                obtain ⟨mid, ending, grows, last, rfl⟩ := advanced.ended result rfl unended
                dsimp only at last ⊢
                rw [run_bind, run_record, run_pure]
                dsimp only [observed]
                rw [last]
                exact grows.binding known
            · exact .refl
        obtain ⟨gathering, st1⟩ := p
        dsimp only at grows ⊢
        cases gathering with
        | waiting =>
          exact ⟨fun ended => absurd unended ended, fun _ => grows, fun _ some => by cases some⟩
        | blocked ending => exact .finish grows unended ending
        | complete assigned =>
          dsimp only
          rw [dispatch]
          split
          · exact .finish grows unended _
          · exact ⟨fun ended => absurd unended ended, fun _ => grows.quiet trivial,
              fun _ some => by cases some⟩

/-- A step of a group is told by its group, not by itself. -/
theorem StepGrows.leaf {pipeline group : Nat} {path : List Nat} {st : RunState World}
    {p : Option Envelope × RunState World} (h : s.StepGrows (.leaf pipeline group path) st p) :
    s.Grows st.trace p.2.trace := by
  cases unended : st.trace.ending? (.leaf pipeline group path) with
  | some ending =>
    rw [h.still (by rw [unended]; exact Option.some_ne_none _)]
    exact .refl
  | none =>
    cases result : p.1 with
    | none => exact h.going result
    | some result' =>
      obtain ⟨mid, ending, grows, last, -⟩ := h.ended result' result unended
      rw [last]
      exact grows.quiet trivial

/-! ## Groups -/

section Groups

variable (pipeline group : Nat) (previous : Option Value)

mutual

theorem advanceGroup_grows : ∀ (g : Group) (path : List Nat) (st : RunState World),
    s.Grows st.trace ((s.advanceGroup pipeline group path previous g).run st).2.trace
  | .single step, path, st => by
    rw [advanceGroup]
    exact (s.advanceStep_grows _ _ step previous st).leaf
  | .parallel branches, path, st => by
    rw [advanceGroup, run_bind]
    exact advanceBranches_grows branches path 0 st
  | .fallback branches, path, st => by
    rw [advanceGroup]
    exact advanceFallback_grows branches path 0 [] st

theorem advanceBranches_grows : ∀ (rest : List Group) (path : List Nat) (position : Nat)
    (st : RunState World), s.Grows st.trace
      ((s.advanceBranches pipeline group path previous position rest).run st).2.trace
  | [], path, position, st => .refl
  | branch :: rest, path, position, st => by
    have first := advanceGroup_grows branch (path ++ [position]) st
    rw [advanceBranches, run_bind]
    generalize (s.advanceGroup pipeline group (path ++ [position]) previous branch).run st = p
      at first ⊢
    rw [run_bind]
    exact first.trans (advanceBranches_grows rest path (position + 1) p.2)

theorem advanceFallback_grows : ∀ (rest : List Group) (path : List Nat) (position : Nat)
    (errors : List String) (st : RunState World), s.Grows st.trace
      ((s.advanceFallback pipeline group path previous position errors rest).run st).2.trace
  | [], path, position, errors, st => .refl
  | branch :: rest, path, position, errors, st => by
    have first := advanceGroup_grows branch (path ++ [position]) st
    rw [advanceFallback, run_bind]
    generalize (s.advanceGroup pipeline group (path ++ [position]) previous branch).run st = p
      at first ⊢
    obtain ⟨result, st1⟩ := p
    cases result with
    | none => exact first
    | some result =>
      dsimp only
      split
      · exact first
      · exact first.trans (advanceFallback_grows rest path (position + 1) _ st1)

end

end Groups

/-- Results arrive without being told. -/
theorem after_grows (s : Session World) (st : RunState World) (delay : Nat) :
    s.Grows st.trace (st.after delay).trace := by
  refine Grows.refl.quiets fun event hmem => ?_
  obtain ⟨d, -, rfl⟩ := List.mem_map.mp hmem
  trivial

theorem receive_grows (s : Session World) (st : RunState World) :
    s.Grows st.trace st.receive.trace := by
  unfold RunState.receive
  split
  · exact s.after_grows st _
  · exact .refl

theorem settle_grows {advance : Run World (Option Envelope)}
    (grows : ∀ st, s.Grows st.trace (advance.run st).2.trace) (bound : Nat)
    (st : RunState World) : s.Grows st.trace ((Run.settle advance bound).run st).2.trace := by
  induction bound generalizing st with
  | zero => exact .refl
  | succ bound ih =>
    have first := grows st
    rw [Run.settle, run_bind, run_get]
    dsimp only
    rw [run_bind]
    generalize advance.run st = p at first ⊢
    obtain ⟨result, st1⟩ := p
    cases result with
    | some result => exact first
    | none =>
      refine first.trans (Grows.trans ?_ (ih _))
      show s.Grows st1.trace (if st1.trace.length = st.trace.length then st1.receive
        else st1.after 0).trace
      split
      · exact s.receive_grows st1
      · exact s.after_grows st1 0

/-- **A group is run** with all bindings told that it asks for. -/
theorem runGroup_grows (s : Session World) (pipeline group : Nat) (previous : Option Value)
    (g : Group) (st : RunState World) :
    s.Grows st.trace ((s.runGroup pipeline group previous g).run st).2.trace :=
  settle_grows (advanceGroup_grows pipeline group previous g []) _ st

end Session

end CapabilityPipeline
