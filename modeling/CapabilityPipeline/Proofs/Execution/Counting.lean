import CapabilityPipeline.Execution.Script
import CapabilityPipeline.Proofs.Execution.Dispatch

/-!
# Counted calls

The world of scripted drivers counts calls by driver and action. After a run it has counted what the
trace tells, each call once, but for the calls that are never answered. So where the behaviour of a
script depends on the number of a call, it depends on the calls before it in the trace, and on
nothing else.

Results:

* `Event.counted?`: the name under which an event is counted.
* `Engine.Scripted.calls_replay`: the counts after the calls of a trace.
* `Engine.Scripted.calls_run`: the counts after a run.
-/

namespace CapabilityPipeline

/-- How often what has a name has been called. -/
def CallCounts.calls (counts : CallCounts) (name : String) : Nat :=
  (NameMap.get? counts name).getD 0

/-- The name under which a call of a script is counted, unless it is never answered. -/
def Script.counted? (s : Script) (key : DriverKey) (action : String) : Option String :=
  if s.behaviour? action = some .hangs then none else some (callName key action)

/-- The name under which an event is counted, if it is a call of a script. -/
def Event.counted? (scripts : DriverKey → Option Script) : Event → Option String
  | .called _ call => (scripts call.driver).bind fun s => s.counted? call.driver call.action
  | _ => none

/-- Every driver of the engine follows a script. -/
def Engine.Scripted (e : Engine CallCounts) (scripts : DriverKey → Option Script) : Prop :=
  ∀ key, e.drivers.get? key = (scripts key).map (Driver.scripted key)

variable {counts : CallCounts} {name : String}

theorem CallCounts.calls_insert (counts : CallCounts) (counted name : String) :
    CallCounts.calls (counts.insert counted (counts.calls counted + 1)) name =
      counts.calls name + [counted].count name := by
  rw [calls, NameMap.get?_insert]
  by_cases same : name = counted
  · subst same
    simp [calls]
  · simp [calls, same, Ne.symm same]

/-- A scripted driver counts the calls that it answers. -/
theorem Driver.calls_scripted (key : DriverKey) (s : Script) (request : Request)
    (counts : CallCounts) (name : String) :
    CallCounts.calls ((Driver.scripted key s).call request counts).2 name =
      counts.calls name + (s.counted? key request.action).toList.count name := by
  unfold Driver.scripted Script.counted?
  dsimp only
  cases s.behaviour? request.action with
  | none => exact counts.calls_insert _ name
  | some behaviour =>
    cases behaviour with
    | hangs => rfl
    | _ => exact counts.calls_insert _ name

namespace Engine

variable {e : Engine CallCounts} {scripts : DriverKey → Option Script} {context : Context}

/-- One event is counted as the script of its driver says. -/
theorem Scripted.calls_replayEvent (scripted : e.Scripted scripts) (event : Event) :
    CallCounts.calls (e.replayEvent context counts event) name =
      counts.calls name + (event.counted? scripts).toList.count name := by
  cases event with
  | called site call =>
    rw [replayEvent, Event.counted?, scripted call.driver]
    cases scripts call.driver with
    | none => rfl
    | some s => exact Driver.calls_scripted call.driver s _ counts name
  | _ => rfl

/-- **The counts after a trace** are those before it, and one more for every event that is
counted. -/
theorem Scripted.calls_replay (scripted : e.Scripted scripts) (trace : Trace)
    (counts : CallCounts) (name : String) :
    CallCounts.calls (e.replay context trace counts) name =
      counts.calls name + (trace.filterMap (Event.counted? scripts)).count name := by
  induction trace generalizing counts with
  | nil => rfl
  | cons event rest ih =>
    rw [replay, List.foldl_cons, ← replay, ih, scripted.calls_replayEvent, Nat.add_assoc,
      ← List.count_append]
    cases counted : event.counted? scripts with
    | none => rw [List.filterMap_cons_none counted, Option.toList_none, List.nil_append]
    | some other => rw [List.filterMap_cons_some counted, Option.toList_some, List.singleton_append]

/-- **The counts after a run** tell the calls of its trace, in whatever order branches take
turns. -/
theorem Scripted.calls_run (scripted : e.Scripted scripts) (p : Program) (context : Context)
    (time : String) (counts : CallCounts) (name : String) :
    CallCounts.calls (e.run p context time counts).2 name = counts.calls name +
        ((e.run p context time counts).1.trace.filterMap (Event.counted? scripts)).count name ∧
      ∀ results st, e.MayRun p context time counts results st →
        CallCounts.calls st.world name =
          counts.calls name + (st.trace.filterMap (Event.counted? scripts)).count name := by
  have counted {results : List Envelope} {st : RunState CallCounts}
      (run : e.MayRun p context time counts results st) : CallCounts.calls st.world name =
        counts.calls name + (st.trace.filterMap (Event.counted? scripts)).count name := by
    rw [run.dispatchesOnce.replayed, scripted.calls_replay]
  obtain ⟨st, run, trace, final⟩ := run_mayRun e p context time counts
  refine ⟨?_, fun results st run => counted run⟩
  rw [← trace, ← final]
  exact counted run

end Engine

end CapabilityPipeline
