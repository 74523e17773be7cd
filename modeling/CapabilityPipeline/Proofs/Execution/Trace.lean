import CapabilityPipeline.Execution.Engine

/-!
# Reading traces

How a step has ended, its call, its result and who evaluates a binding are all read off a trace in
one way: the first event of a kind counts. What is read once stays true as the trace grows.

Results:

* `Event.step?`: the step that an event is about.
* `Trace.Reads`: what readers of traces have in common, with one instance for each reader.
* `Trace.ending?_mono` and its like: what has been read stays.
* `Trace.mem_of_ending?` and its like: what is read has happened.
* `Trace.value?`: the result of a binding that has been evaluated.
-/

namespace CapabilityPipeline

/-- The step that an event is about. Log entries are about no step. -/
def Event.step? : Event → Option Occurrence
  | forced step _ => some step
  | called step _ => some step
  | answered step _ => some step
  | ended step _ => some step
  | logged _ => none

namespace Trace

/-- The result of the binding at an index, once it has been evaluated. -/
def value? (trace : Trace) (index : Nat) : Option Envelope :=
  (trace.ending? (.binding index)).map Ending.envelope

/-! ## Readers -/

/-- A reader finds the first event of a form in a trace. -/
structure Reads {α : Type} (read : Trace → Option α) (event : α → Event) : Prop where
  append : ∀ trace added, read (trace ++ added) = (read trace).or (read added)
  empty : read [] = none
  single : ∀ found a, read [found] = some a ↔ found = event a

namespace Reads

variable {α : Type} {read : Trace → Option α} {event : α → Event}

theorem mono (r : Reads read event) {trace later : Trace} (grown : trace <+: later) {a : α}
    (h : read trace = some a) : read later = some a := by
  obtain ⟨added, rfl⟩ := grown
  rw [r.append, h]
  rfl

theorem mem (r : Reads read event) {trace : Trace} {a : α} (h : read trace = some a) :
    event a ∈ trace := by
  induction trace with
  | nil =>
    rw [r.empty] at h
    cases h
  | cons first rest ih =>
    rw [← List.singleton_append, r.append] at h
    rcases Option.or_eq_some_iff.mp h with here | ⟨-, later⟩
    · rw [(r.single first a).mp here]
      exact List.mem_cons_self ..
    · exact List.mem_cons_of_mem _ (ih later)

theorem eq_none (r : Reads read event) {trace : Trace} :
    read trace = none ↔ ∀ a, event a ∉ trace := by
  constructor
  · intro h a hmem
    obtain ⟨before, after, rfl⟩ := List.append_of_mem hmem
    rw [r.append, Option.or_eq_none_iff, ← List.singleton_append, r.append,
      (r.single (event a) a).mpr rfl] at h
    cases h.2
  · intro h
    cases found : read trace with
    | none => rfl
    | some a => exact absurd (r.mem found) (h a)

end Reads

theorem reads_ending (site : Occurrence) : Reads (ending? · site) (.ended site) where
  append := fun _ _ => List.findSome?_append
  empty := rfl
  single := by
    intro found ending
    cases found with
    | ended other ending' => simp [ending?]
    | _ => simp [ending?]

theorem reads_call (site : Occurrence) : Reads (call? · site) (.called site) where
  append := fun _ _ => List.findSome?_append
  empty := rfl
  single := by
    intro found call
    cases found with
    | called other call' => simp [call?]
    | _ => simp [call?]

theorem reads_answer (site : Occurrence) : Reads (answer? · site) (.answered site) where
  append := fun _ _ => List.findSome?_append
  empty := rfl
  single := by
    intro found result
    cases found with
    | answered other result' => simp [answer?]
    | _ => simp [answer?]

theorem reads_keeper (index : Nat) : Reads (keeper? · index) (fun site => .forced site index) where
  append := fun _ _ => List.findSome?_append
  empty := rfl
  single := by
    intro found site
    cases found with
    | forced site' other => simp [keeper?, and_comm]
    | _ => simp [keeper?]

/-! ## Growing traces -/

theorem ending?_append (trace added : Trace) (site : Occurrence) :
    ending? (trace ++ added) site = (trace.ending? site).or (ending? added site) :=
  (reads_ending site).append trace added

theorem call?_append (trace added : Trace) (site : Occurrence) :
    call? (trace ++ added) site = (trace.call? site).or (call? added site) :=
  (reads_call site).append trace added

section Prefix

variable {trace later : Trace} (grown : trace <+: later)

include grown

theorem ending?_mono {site : Occurrence} {ending : Ending} (h : trace.ending? site = some ending) :
    later.ending? site = some ending :=
  (reads_ending site).mono grown h

theorem keeper?_mono {index : Nat} {site : Occurrence} (h : trace.keeper? index = some site) :
    later.keeper? index = some site :=
  (reads_keeper index).mono grown h

theorem value?_mono {index : Nat} {result : Envelope} (h : trace.value? index = some result) :
    later.value? index = some result := by
  obtain ⟨ending, found, rfl⟩ := Option.map_eq_some_iff.mp h
  rw [value?, ending?_mono grown found, Option.map_some]

end Prefix

/-! ## Events -/

section Events

variable {trace : Trace} {site : Occurrence} {index : Nat}

theorem mem_of_ending? {ending : Ending} (h : trace.ending? site = some ending) :
    .ended site ending ∈ trace :=
  (reads_ending site).mem h

theorem mem_of_call? {call : Call} (h : trace.call? site = some call) :
    .called site call ∈ trace :=
  (reads_call site).mem h

theorem mem_of_answer? {result : Envelope} (h : trace.answer? site = some result) :
    .answered site result ∈ trace :=
  (reads_answer site).mem h

theorem mem_of_keeper? (h : trace.keeper? index = some site) : .forced site index ∈ trace :=
  (reads_keeper index).mem h

theorem ending?_eq_none : trace.ending? site = none ↔ ∀ ending, .ended site ending ∉ trace :=
  (reads_ending site).eq_none

theorem call?_eq_none : trace.call? site = none ↔ ∀ call, .called site call ∉ trace :=
  (reads_call site).eq_none

theorem answer?_eq_none : trace.answer? site = none ↔ ∀ result, .answered site result ∉ trace :=
  (reads_answer site).eq_none

theorem keeper?_eq_none : trace.keeper? index = none ↔ ∀ site, .forced site index ∉ trace :=
  (reads_keeper index).eq_none

end Events

end Trace

end CapabilityPipeline
