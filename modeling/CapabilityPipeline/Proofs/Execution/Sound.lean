import CapabilityPipeline.Proofs.Execution.Branches
import CapabilityPipeline.Proofs.Execution.Reached
import Mathlib.Data.List.Nodup
import Mathlib.Data.List.Perm.Basic

/-!
# What every move preserves

Nothing happens twice, results are only lost by arriving, and a step that has asked for a binding
without a result is still waiting for it.

Results:

* `Trace.keys`, `Trace.callers`: what has happened, and for which steps drivers were called.
* `Session.Sound`: the invariant of a run.
* `Session.Sound.moves`: moves preserve it, in any order.
* `Session.Sound.next`: it holds of the next group when a group has its envelope.
-/

namespace CapabilityPipeline

/-! ## What has happened -/

/-- What an event adds to a run: a step and a number for the kind of event. -/
def Event.key? : Event → Option (Occurrence × Nat)
  | called site _ => some (site, 0)
  | answered site _ => some (site, 1)
  | ended site _ => some (site, 2)
  | forced site index => some (site, index + 3)
  | logged _ => none

/-- The step that a driver is called for. -/
def Event.caller? : Event → Option Occurrence
  | called site _ => some site
  | _ => none

/-- The step that a result arrives for. -/
def Event.receiver? : Event → Option Occurrence
  | answered site _ => some site
  | _ => none

namespace Trace

/-- What has happened in a run, log entries aside. -/
def keys (trace : Trace) : List (Occurrence × Nat) :=
  trace.filterMap Event.key?

/-- The steps for which a driver was called, in the order of the calls. -/
def callers (trace : Trace) : List Occurrence :=
  trace.filterMap Event.caller?

/-- The steps for which a result has arrived. -/
def receivers (trace : Trace) : List Occurrence :=
  trace.filterMap Event.receiver?

theorem mem_callers {trace : Trace} {site : Occurrence} :
    site ∈ trace.callers ↔ ∃ call, .called site call ∈ trace := by
  rw [callers, List.mem_filterMap]
  constructor
  · rintro ⟨event, hmem, same⟩
    cases event with
    | called other call =>
      cases same
      exact ⟨call, hmem⟩
    | _ => cases same
  · rintro ⟨call, hmem⟩
    exact ⟨_, hmem, rfl⟩

theorem mem_receivers {trace : Trace} {site : Occurrence} :
    site ∈ trace.receivers ↔ ∃ result, .answered site result ∈ trace := by
  rw [receivers, List.mem_filterMap]
  constructor
  · rintro ⟨event, hmem, same⟩
    cases event with
    | answered other result =>
      cases same
      exact ⟨result, hmem⟩
    | _ => cases same
  · rintro ⟨result, hmem⟩
    exact ⟨_, hmem, rfl⟩

theorem not_mem_callers {trace : Trace} {site : Occurrence} :
    site ∉ trace.callers ↔ trace.call? site = none := by
  rw [mem_callers, call?_eq_none, not_exists]

theorem not_mem_receivers {trace : Trace} {site : Occurrence} :
    site ∉ trace.receivers ↔ trace.answer? site = none := by
  rw [mem_receivers, answer?_eq_none, not_exists]

theorem callers_append (trace added : Trace) :
    callers (trace ++ added) = trace.callers ++ callers added :=
  List.filterMap_append

theorem receivers_append (trace added : Trace) :
    receivers (trace ++ added) = trace.receivers ++ receivers added :=
  List.filterMap_append

theorem callers_called (site : Occurrence) (call : Call) : callers [.called site call] = [site] :=
  rfl

theorem receivers_called (site : Occurrence) (call : Call) : receivers [.called site call] = [] :=
  rfl

theorem callers_answered (site : Occurrence) (result : Envelope) :
    callers [.answered site result] = [] :=
  rfl

theorem receivers_answered (site : Occurrence) (result : Envelope) :
    receivers [.answered site result] = [site] :=
  rfl

/-- Where nothing happens twice, no driver is called twice for a step. -/
theorem callers_nodup {trace : Trace} (h : trace.keys.Nodup) : trace.callers.Nodup := by
  have calls : trace.callers =
      trace.keys.filterMap fun k => if k.2 = 0 then some k.1 else none := by
    rw [callers, keys, List.filterMap_filterMap]
    congr 1
    funext event
    cases event <;> rfl
  rw [calls]
  refine h.filterMap fun k l site hk hl => ?_
  obtain ⟨hk0, rfl⟩ := Option.ite_none_right_eq_some.mp hk |>.imp id Option.some.inj
  obtain ⟨hl0, same⟩ := Option.ite_none_right_eq_some.mp hl |>.imp id Option.some.inj
  exact Prod.ext same.symm (hk0.trans hl0.symm)

theorem keys_concat_nodup {trace : Trace} (h : trace.keys.Nodup) {event : Event}
    (fresh : ∀ key, event.key? = some key → key ∉ trace.keys) :
    (keys (trace ++ [event])).Nodup := by
  rw [keys, List.filterMap_append]
  cases new : event.key? with
  | none => rwa [List.filterMap_cons_none new, List.filterMap_nil, List.append_nil]
  | some key =>
    rw [List.filterMap_cons_some new, List.filterMap_nil]
    refine List.nodup_append.mpr ⟨h, List.nodup_singleton key, fun k hk l hl same => ?_⟩
    rw [List.mem_singleton.mp hl] at same
    exact fresh key new (same ▸ hk)

theorem key_called_fresh {trace : Trace} {site : Occurrence} (h : trace.call? site = none) :
    (site, 0) ∉ trace.keys := by
  intro hmem
  obtain ⟨event, hevent, same⟩ := List.mem_filterMap.mp hmem
  cases event with
  | called other call =>
    cases same
    exact call?_eq_none.mp h call hevent
  | _ => cases same

theorem key_answered_fresh {trace : Trace} {site : Occurrence}
    (h : site ∉ trace.receivers) : (site, 1) ∉ trace.keys := by
  intro hmem
  obtain ⟨event, hevent, same⟩ := List.mem_filterMap.mp hmem
  cases event with
  | answered other result =>
    cases same
    exact h (mem_receivers.mpr ⟨result, hevent⟩)
  | _ => cases same

theorem key_ended_fresh {trace : Trace} {site : Occurrence} (h : trace.ending? site = none) :
    (site, 2) ∉ trace.keys := by
  intro hmem
  obtain ⟨event, hevent, same⟩ := List.mem_filterMap.mp hmem
  cases event with
  | ended other ending =>
    cases same
    exact ending?_eq_none.mp h ending hevent
  | _ => cases same

theorem key_forced_fresh {trace : Trace} {site : Occurrence} {index : Nat}
    (h : .forced site index ∉ trace) : (site, index + 3) ∉ trace.keys := by
  intro hmem
  obtain ⟨event, hevent, same⟩ := List.mem_filterMap.mp hmem
  cases event with
  | forced other i =>
    cases same
    exact h hevent
  | _ => cases same

end Trace

/-- The result of a call goes to the step that it was made for. -/
theorem Served.delivery_step (site : Occurrence) (route : String) (limit : Option Nat)
    (served : Served) : (served.delivery site route limit).step = site := by
  cases limit with
  | none => rfl
  | some ms =>
    dsimp only [Served.delivery]
    split
    · rfl
    · rfl

/-! ## The invariant -/

namespace Session

variable {World : Type}

/-- What holds of a run at any time. -/
structure Sound (s : Session World) (stage : Stage) (st : RunState World) : Prop where
  /-- Nothing happens twice. -/
  keys : st.trace.keys.Nodup
  /-- The result of a call has either arrived or is underway. -/
  deliveries : (st.trace.receivers ++ st.underway.map Delivery.step).Perm st.trace.callers
  /-- A step that has asked for a binding without a result waits for it. -/
  waits : ∀ site index, .forced site index ∈ st.trace → st.trace.value? index = none →
    ∃ task, s.Ready stage st.trace site task ∧ s.Asks st.trace task index
  /-- A result is underway to a step that has a task and has not ended. -/
  underway : ∀ d ∈ st.underway,
    (∃ task, s.task? stage st.trace d.step = some task) ∧ st.trace.ending? d.step = none

variable {s : Session World} {stage : Stage}

theorem Asks.mono {trace later : Trace} (grown : trace <+: later) {task : Task} {index : Nat}
    (h : s.Asks trace task index) : s.Asks later task index := by
  obtain ⟨before, name, rest, found, b, mentions, complete, same, visible⟩ := h
  exact ⟨before, name, rest, found, b, mentions,
    ask_complete_mono (fun _ _ => Trace.value?_mono grown) complete, same, visible⟩

/-- A step that asks for a binding without a result waits for it. -/
theorem Asks.asking {trace : Trace} {task : Task} {index : Nat} (h : s.Asks trace task index)
    (unknown : trace.value? index = none) : s.asking trace task = .waiting index := by
  obtain ⟨before, name, rest, found, b, mentions, complete, same, visible⟩ := h
  rw [Session.asking, mentions, ask_append complete, ask_cons_visible same visible, unknown]

namespace Sound

variable {st st' : RunState World}

/-- A result that is underway has not arrived. -/
theorem not_received (h : s.Sound stage st) {d : Delivery} (hd : d ∈ st.underway) :
    d.step ∉ st.trace.receivers ∧ d.step ∈ st.trace.callers := by
  have nodup : (st.trace.receivers ++ st.underway.map Delivery.step).Nodup :=
    h.deliveries.nodup_iff.mpr (Trace.callers_nodup h.keys)
  have there := List.mem_map_of_mem (f := Delivery.step) hd
  refine ⟨fun received => ?_, h.deliveries.subset (List.mem_append_right _ there)⟩
  exact (List.nodup_append.mp nodup).2.2 _ received _ there rfl

/-- To a step for which no driver was called, no result is underway. -/
theorem not_underway (h : s.Sound stage st) {site : Occurrence}
    (uncalled : st.trace.call? site = none) : ∀ d ∈ st.underway, d.step ≠ site := by
  rintro d hd rfl
  exact Trace.not_mem_callers.mpr uncalled (h.not_received hd).2

/-- A result that has arrived is not underway. -/
theorem not_underway_of_answer (h : s.Sound stage st) {site : Occurrence} {result : Envelope}
    (answered : st.trace.answer? site = some result) : ∀ d ∈ st.underway, d.step ≠ site := by
  rintro d hd rfl
  exact (h.not_received hd).1 (Trace.mem_receivers.mpr ⟨result, Trace.mem_of_answer? answered⟩)

/-- The first part of the invariant: nothing happens twice. -/
theorem move_keys (h : s.Sound stage st) (move : s.Move stage st st') : st'.trace.keys.Nodup := by
  cases move with
  | force ready asks new =>
    refine Trace.keys_concat_nodup h.keys fun key same => ?_
    cases same
    exact Trace.key_forced_fresh new
  | block ready blocked =>
    refine Trace.keys_concat_nodup h.keys fun key same => ?_
    cases same
    exact Trace.key_ended_fresh ready.unended
  | refuse ready complete route =>
    refine Trace.keys_concat_nodup h.keys fun key same => ?_
    cases same
    exact Trace.key_ended_fresh ready.unended
  | call ready complete route =>
    refine Trace.keys_concat_nodup h.keys fun key same => ?_
    cases same
    exact Trace.key_called_fresh ready.uncalled
  | finish task called answered unended =>
    refine Trace.keys_concat_nodup h.keys fun key same => ?_
    cases same
    exact Trace.key_ended_fresh unended
  | log entry =>
    refine Trace.keys_concat_nodup h.keys fun key same => ?_
    cases same
  | arrive =>
    refine Trace.keys_concat_nodup h.keys fun key same => ?_
    cases same
    exact Trace.key_answered_fresh
      (h.not_received (List.mem_append_right _ (List.mem_cons_self ..))).1
  | elapse => exact h.keys

/-- The second part: results are lost by arriving only. -/
theorem move_deliveries (h : s.Sound stage st) (move : s.Move stage st st') :
    (st'.trace.receivers ++ st'.underway.map Delivery.step).Perm st'.trace.callers := by
  have silent {event : Event} (noReceiver : event.receiver? = none)
      (noCaller : event.caller? = none) :
      (Trace.receivers (st.trace ++ [event]) ++ st.underway.map Delivery.step).Perm
        (Trace.callers (st.trace ++ [event])) := by
    rw [Trace.receivers_append, Trace.callers_append, Trace.receivers, Trace.callers,
      Trace.receivers, Trace.callers, List.filterMap_cons_none noReceiver,
      List.filterMap_cons_none noCaller, List.filterMap_nil, List.filterMap_nil, List.append_nil,
      List.append_nil]
    exact h.deliveries
  cases move with
  | force => exact silent rfl rfl
  | block => exact silent rfl rfl
  | refuse => exact silent rfl rfl
  | @call _ site task found driver key action ready complete route =>
    have more := h.deliveries.append_right [site]
    rw [List.append_assoc] at more
    rw [afterCall]
    dsimp only [observed]
    rw [Trace.receivers_append, Trace.callers_append, List.map_append, Trace.receivers_called,
      Trace.callers_called, List.append_nil, List.map_singleton, Served.delivery_step]
    exact more
  | finish => exact silent rfl rfl
  | log => exact silent rfl rfl
  | @arrive world before after delivery trace =>
    have known := h.deliveries
    dsimp only at known ⊢
    rw [List.map_append, List.map_cons] at known
    rw [Trace.receivers_append, Trace.callers_append, Trace.receivers_answered,
      Trace.callers_answered, List.append_nil, List.map_append, List.append_assoc,
      List.singleton_append]
    exact (List.perm_middle.symm.append_left _).trans known
  | elapse delay =>
    dsimp only
    rw [List.map_map]
    exact h.deliveries

/-- The third part: a step that waits for a binding neither calls a driver nor ends. -/
theorem move_waits (h : s.Sound stage st) (move : s.Move stage st st') (site : Occurrence)
    (index : Nat) (forced : .forced site index ∈ st'.trace)
    (unknown : st'.trace.value? index = none) :
    ∃ task, s.Ready stage st'.trace site task ∧ s.Asks st'.trace task index := by
  have unknown' : st.trace.value? index = none := by
    cases known : st.trace.value? index with
    | none => rfl
    | some result => rw [Trace.value?_mono move.trace_prefix known] at unknown; cases unknown
  have stays {event : Event} (same : st'.trace = st.trace ++ [event])
      (quiet : ∀ task, s.Ready stage st.trace site task → s.asking st.trace task = .waiting index →
        (∀ call, event ≠ .called site call) ∧ ∀ ending, event ≠ .ended site ending)
      (old : .forced site index ∈ st.trace) :
      ∃ task, s.Ready stage st'.trace site task ∧ s.Asks st'.trace task index := by
    obtain ⟨task, ready, asks⟩ := h.waits site index old unknown'
    obtain ⟨uncalled, unended⟩ := quiet task ready (asks.asking unknown')
    rw [same]
    exact ⟨task, ready.concat uncalled unended, asks.mono (List.prefix_append _ _)⟩
  have old {event : Event} (same : st'.trace = st.trace ++ [event])
      (new : ∀ other i, event ≠ .forced other i) : .forced site index ∈ st.trace := by
    rw [same] at forced
    rcases List.mem_append.mp forced with old | added
    · exact old
    · exact absurd (List.mem_singleton.mp added).symm (new site index)
  have uniform {task task' : Task} (ready : s.Ready stage st.trace site task)
      (ready' : s.Ready stage st.trace site task') : task = task' :=
    Option.some.inj (ready.task.symm.trans ready'.task)
  cases move with
  | @force _ site' task' index' ready asks new =>
    rcases List.mem_append.mp forced with before | added
    · exact stays rfl (fun _ _ _ => ⟨nofun, nofun⟩) before
    · cases List.mem_singleton.mp added
      exact ⟨task', ready.concat nofun nofun, asks.mono (List.prefix_append _ _)⟩
  | block ready blocked =>
    refine stays rfl (fun task ready' waiting => ?_) (old rfl nofun)
    refine ⟨nofun, fun _ h => ?_⟩
    cases h
    rw [uniform ready ready', waiting] at blocked
    cases blocked
  | refuse ready complete route =>
    refine stays rfl (fun task ready' waiting => ?_) (old rfl nofun)
    refine ⟨nofun, fun _ h => ?_⟩
    cases h
    rw [uniform ready ready', waiting] at complete
    cases complete
  | call ready complete route =>
    refine stays rfl (fun task ready' waiting => ?_) (old rfl nofun)
    refine ⟨fun _ h => ?_, nofun⟩
    cases h
    rw [uniform ready ready', waiting] at complete
    cases complete
  | finish task called answered unended =>
    refine stays rfl (fun _ ready' _ => ?_) (old rfl nofun)
    refine ⟨nofun, fun _ h => ?_⟩
    cases h
    rw [ready'.uncalled] at called
    cases called
  | log entry =>
    refine stays rfl (fun _ _ _ => ?_) (old rfl nofun)
    exact ⟨nofun, nofun⟩
  | arrive =>
    refine stays rfl (fun _ _ _ => ?_) (old rfl nofun)
    exact ⟨nofun, nofun⟩
  | elapse => exact h.waits site index forced unknown

/-- The fourth part: a step to which a result is underway does not end. -/
theorem move_underway (h : s.Sound stage st) (move : s.Move stage st st') :
    ∀ d ∈ st'.underway,
      (∃ task, s.task? stage st'.trace d.step = some task) ∧ st'.trace.ending? d.step = none := by
  have stays {event : Event} (d : Delivery) (hd : d ∈ st.underway)
      (unended : ∀ ending, event ≠ .ended d.step ending) :
      (∃ task, s.task? stage (st.trace ++ [event]) d.step = some task) ∧
        Trace.ending? (st.trace ++ [event]) d.step = none := by
    obtain ⟨⟨task, ready⟩, still⟩ := h.underway d hd
    refine ⟨⟨task, s.task?_mono (List.prefix_append _ _) stage ready⟩, ?_⟩
    rw [Trace.ending?_append, still, Option.none_or, Trace.ending?_eq_none]
    exact fun ending hmem => unended ending (List.mem_singleton.mp hmem).symm
  cases move with
  | force => exact fun d hd => stays d hd nofun
  | block ready blocked =>
    refine fun d hd => stays d hd fun _ same => ?_
    cases same
    exact h.not_underway ready.uncalled d hd rfl
  | refuse ready complete route =>
    refine fun d hd => stays d hd fun _ same => ?_
    cases same
    exact h.not_underway ready.uncalled d hd rfl
  | @call _ site task found driver key action ready complete route =>
    intro d hd
    rcases List.mem_append.mp hd with hd | hd
    · exact stays d hd nofun
    · rw [List.mem_singleton.mp hd, Served.delivery_step]
      refine ⟨⟨task, s.task?_mono (List.prefix_append _ _) stage ready.task⟩, ?_⟩
      dsimp only [afterCall, observed]
      rw [Trace.ending?_append, ready.unended]
      rfl
  | finish task called answered unended =>
    refine fun d hd => stays d hd fun _ same => ?_
    cases same
    exact h.not_underway_of_answer answered d hd rfl
  | log => exact fun d hd => stays d hd nofun
  | arrive =>
    refine fun d hd => stays d ?_ nofun
    exact List.mem_append.mpr ((List.mem_append.mp hd).imp_right (List.mem_cons_of_mem _))
  | elapse delay =>
    intro d hd
    obtain ⟨d', hd', rfl⟩ := List.mem_map.mp hd
    exact h.underway d' hd'

/-- Every move preserves the invariant. -/
theorem move (h : s.Sound stage st) (move : s.Move stage st st') : s.Sound stage st' :=
  ⟨h.move_keys move, h.move_deliveries move, h.move_waits move, h.move_underway move⟩

/-- **Moves preserve the invariant**, in whatever order they are made. -/
theorem moves (h : s.Sound stage st) (moves : s.Moves stage st st') : s.Sound stage st' := by
  induction moves with
  | refl => exact h
  | tail _ move ih => exact ih.move move

/-- The invariant holds before anything happens. -/
theorem initial (s : Session World) (stage : Stage) (world : World) :
    s.Sound stage (Engine.initial world) where
  keys := List.nodup_nil
  deliveries := List.Perm.refl _
  waits := fun _ _ hmem => by cases hmem
  underway := fun _ hd => by cases hd

end Sound

/-! ## From one group to the next -/

/-- When a group has its envelope, the steps that have a task and have not ended are those of
bindings, whose tasks do not depend on the group. -/
theorem task?_next {trace : Trace} {result : Envelope} {site : Occurrence} {task : Task}
    (h : s.outcome? trace stage.pipeline stage.group [] stage.body = some result)
    (ready : s.task? stage trace site = some task) (unended : trace.ending? site = none)
    (next : Stage) : s.task? next trace site = some task := by
  cases site with
  | binding => exact ready
  | leaf =>
    obtain ⟨ending, ended⟩ := leaf_ended h ready
    rw [unended] at ended
    cases ended
  | alone => cases ready

/-- **When a group has its envelope, the invariant holds of the next group.** -/
theorem Sound.next {st : RunState World} (h : s.Sound stage st) {result : Envelope}
    (done : s.outcome? st.trace stage.pipeline stage.group [] stage.body = some result)
    (next : Stage) : s.Sound next st where
  keys := h.keys
  deliveries := h.deliveries
  waits := by
    intro site index forced unknown
    obtain ⟨task, ready, asks⟩ := h.waits site index forced unknown
    exact ⟨task, ⟨task?_next done ready.task ready.unended next, ready.uncalled, ready.unended⟩, asks⟩
  underway := by
    intro d hd
    obtain ⟨⟨task, ready⟩, unended⟩ := h.underway d hd
    exact ⟨⟨task, task?_next done ready unended next⟩, unended⟩

end Session

end CapabilityPipeline
