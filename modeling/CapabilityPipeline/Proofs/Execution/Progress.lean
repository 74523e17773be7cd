import CapabilityPipeline.Proofs.Execution.Sound
import Mathlib.Data.List.ProdSigma

/-!
# Groups are run to their end

An advance that does nothing leaves every step of the group waiting. Steps wait for bindings that
stand before them, so in the end one of them waits for the result of a call, which then is on its
way. And since nothing happens twice, only so many advances can do something: the number of
advances that a group is given is enough.

Results:

* `Session.exists_underway`: a group that waits waits for a result on its way.
* `Session.grid`, `Session.keys_length_le`: all that can happen while a group is run.
* `Session.runGroup_spec`: a group is run to its end by moves.
-/

namespace CapabilityPipeline

/-! ## Steps of a group -/

namespace Group

mutual

/-- The paths to the steps of a group, in source order. -/
def paths : Group → List (List Nat)
  | .single _ => [[]]
  | .parallel branches => branchPaths 0 branches
  | .fallback branches => branchPaths 0 branches

/-- The paths to the steps of branches, of which the first has the given position. -/
def branchPaths : (position : Nat) → List Group → List (List Nat)
  | _, [] => []
  | position, branch :: rest =>
    (paths branch).map (position :: ·) ++ branchPaths (position + 1) rest

end

mutual

theorem length_paths : ∀ g : Group, g.paths.length = g.steps.length
  | .single _ => rfl
  | .parallel branches => by rw [paths, steps, length_branchPaths 0 branches]
  | .fallback branches => by rw [paths, steps, length_branchPaths 0 branches]

theorem length_branchPaths : ∀ (position : Nat) (branches : List Group),
    (branchPaths position branches).length = (branchSteps branches).length
  | _, [] => rfl
  | position, branch :: rest => by
    rw [branchPaths, branchSteps, List.length_append, List.length_append, List.length_map,
      length_paths branch, length_branchPaths (position + 1) rest]

end

theorem mem_branchPaths {branches : List Group} {position index : Nat} {branch : Group}
    (found : branches[index]? = some branch) {path : List Nat} (h : path ∈ branch.paths) :
    (position + index) :: path ∈ branchPaths position branches := by
  induction branches generalizing position index with
  | nil => cases found
  | cons first rest ih =>
    rw [branchPaths, List.mem_append]
    cases index with
    | zero =>
      cases found
      exact .inl (List.mem_map_of_mem h)
    | succ index =>
      rw [Nat.add_comm index 1, ← Nat.add_assoc]
      exact .inr (ih found)

theorem mem_paths {path : List Nat} {g : Group} {step : Step} (h : g.stepAt? path = some step) :
    path ∈ g.paths := by
  induction path generalizing g with
  | nil =>
    cases g with
    | single => exact List.mem_singleton_self _
    | parallel => cases h
    | fallback => cases h
  | cons position path ih =>
    cases g with
    | single => cases h
    | parallel branches =>
      rw [stepAt?] at h
      obtain ⟨branch, found, deeper⟩ := Option.bind_eq_some_iff.mp h
      rw [paths, ← Nat.zero_add position]
      exact mem_branchPaths found (ih deeper)
    | fallback branches =>
      rw [stepAt?] at h
      obtain ⟨branch, found, deeper⟩ := Option.bind_eq_some_iff.mp h
      rw [paths, ← Nat.zero_add position]
      exact mem_branchPaths found (ih deeper)

end Group

namespace Session

variable {World : Type} {s : Session World} {stage : Stage}

/-! ## Waiting -/

section Stuck

variable {st : RunState World} (sound : s.Sound stage st)
  (waits : s.AllWait stage st.trace [] stage.body)

include sound

/-- A step that has asked for a binding without a result has asked for no other one. -/
theorem waits_once {site : Occurrence} {index other : Nat}
    (forced : .forced site index ∈ st.trace) (unknown : st.trace.value? index = none)
    (forced' : .forced site other ∈ st.trace) (unknown' : st.trace.value? other = none) :
    other = index := by
  obtain ⟨task, ready, asks⟩ := sound.waits site index forced unknown
  obtain ⟨task', ready', asks'⟩ := sound.waits site other forced' unknown'
  obtain rfl := Option.some.inj (ready.task.symm.trans ready'.task)
  have same := (asks'.asking unknown').symm.trans (asks.asking unknown)
  cases same
  rfl

include waits

/-- A binding without a result waits, because the step that evaluates it waits for nothing
else. -/
theorem binding_waits {index : Nat} {site : Occurrence}
    (keeper : st.trace.keeper? index = some site) (unknown : st.trace.value? index = none) :
    Waits st.trace (.binding index) := by
  -- the step that evaluates a binding is a leaf or a later binding
  induction remaining : s.bindings.length - index using Nat.strongRecOn generalizing index site with
  | ind n ih =>
    have forced := Trace.mem_of_keeper? keeper
    obtain ⟨task, ready, asks⟩ := sound.waits site index forced unknown
    have down (h : Waits st.trace site) : Waits st.trace (.binding index) := by
      cases h with
      | result called =>
        rw [ready.uncalled] at called
        cases called
      | other forced' unknown' other =>
        obtain rfl := waits_once sound forced unknown forced' unknown'
        exact absurd keeper other
      | binding forced' unknown' waits' =>
        obtain rfl := waits_once sound forced unknown forced' unknown'
        exact waits'
    cases site with
    | binding later =>
      obtain ⟨⟨site', keeper'⟩, b, found, rfl⟩ := task?_binding ready.task
      have less := asks.visible
      have known := (List.getElem?_eq_some_iff.mp found).1
      have unended : st.trace.value? later = none := by
        rw [Trace.value?, ready.unended]
        rfl
      exact down (ih _ (by dsimp only at less; omega) keeper' unended rfl)
    | leaf pipeline group path =>
      obtain ⟨rfl, rfl, step, reached, -⟩ := task?_leaf ready.task
      exact down (waits path step reached ready.unended)
    | alone => cases ready.task

/-- Whoever waits waits in the end for the result of a call. -/
theorem Waits.unanswered {limit : Nat} {site : Occurrence} (h : Waits st.trace site)
    (below : ∀ task, s.task? stage st.trace site = some task → task.limit ≤ limit) :
    ∃ other ∈ st.trace.callers, other ∉ st.trace.receivers := by
  induction limit using Nat.strongRecOn generalizing site with
  | ind limit ih =>
    have onward {index : Nat} (forced : .forced site index ∈ st.trace)
        (unknown : st.trace.value? index = none) (h : Waits st.trace (.binding index)) :
        ∃ other ∈ st.trace.callers, other ∉ st.trace.receivers := by
      obtain ⟨task, ready, asks⟩ := sound.waits site index forced unknown
      have less := Nat.lt_of_lt_of_le asks.visible (below task ready.task)
      refine ih index less h fun task' ready' => ?_
      obtain ⟨-, b, -, rfl⟩ := task?_binding ready'
      exact Nat.le_refl _
    cases h with
    | result called unanswered =>
      exact ⟨site, Trace.mem_callers.mpr ⟨_, Trace.mem_of_call? called⟩,
        Trace.not_mem_receivers.mpr unanswered⟩
    | @other _ index forced unknown keeper =>
      cases kept : st.trace.keeper? index with
      | none => exact absurd forced (Trace.keeper?_eq_none.mp kept site)
      | some site' => exact onward forced unknown (binding_waits sound waits kept unknown)
    | binding forced unknown waits' => exact onward forced unknown waits'

/-- **A group that waits waits for a result on its way.** -/
theorem exists_underway
    (unfinished : s.outcome? st.trace stage.pipeline stage.group [] stage.body = none) :
    ∃ d, d ∈ st.underway := by
  obtain ⟨path, step, reached, unended⟩ := (outcome?_eq_none [] stage.body).mp unfinished
  have waiting := waits path step reached unended
  obtain ⟨site, called, unanswered⟩ :=
    waiting.unanswered sound waits fun task ready => task?_limit_le ready
  have hmem := sound.deliveries.symm.subset called
  rcases List.mem_append.mp hmem with received | there
  · exact absurd received unanswered
  · obtain ⟨d, hd, -⟩ := List.mem_map.mp there
    exact ⟨d, hd⟩

end Stuck

/-! ## Counting -/

/-- All that can happen while a group is run: a call, a result, an ending, and a question for each
binding, for each step of the group and for each binding. -/
def grid (s : Session World) (stage : Stage) : List (Occurrence × Nat) :=
  ((List.range s.bindings.length).map Occurrence.binding ++
    stage.body.paths.map (Occurrence.leaf stage.pipeline stage.group)) ×ˢ
      List.range (s.bindings.length + 3)

theorem length_grid (s : Session World) (stage : Stage) :
    (s.grid stage).length + 1 = s.advanceBound stage.body.steps.length := by
  rw [grid, List.length_product, List.length_append, List.length_map, List.length_map,
    List.length_range, List.length_range, Group.length_paths, advanceBound]

theorem mem_grid {trace : Trace} {site : Occurrence} {task : Task} {kind : Nat}
    (ready : s.task? stage trace site = some task) (less : kind < s.bindings.length + 3) :
    (site, kind) ∈ s.grid stage := by
  refine List.pair_mem_product.mpr ⟨List.mem_append.mpr ?_, List.mem_range.mpr less⟩
  cases site with
  | binding index =>
    obtain ⟨-, b, found, -⟩ := task?_binding ready
    exact .inl (List.mem_map_of_mem (List.mem_range.mpr (List.getElem?_eq_some_iff.mp found).1))
  | leaf =>
    obtain ⟨rfl, rfl, step, reached, -⟩ := task?_leaf ready
    exact .inr (List.mem_map_of_mem (Group.mem_paths (stepAt?_of_reached? reached)))
  | alone => cases ready

variable {start st st' : RunState World}

/-- A move adds at most one event, about a step that has a task and has not ended. -/
theorem Sound.move_added (h : s.Sound stage st) (move : s.Move stage st st') :
    st'.trace = st.trace ∨ ∃ event, st'.trace = st.trace ++ [event] ∧
      ∀ site, event.step? = some site → ∃ task, s.task? stage st.trace site = some task ∧
        st.trace.ending? site = none ∧ ∀ index, event = .forced site index → index < task.limit := by
  cases move with
  | force ready asks new =>
    refine .inr ⟨_, rfl, fun site same => ?_⟩
    cases same
    refine ⟨_, ready.task, ready.unended, fun index same => ?_⟩
    cases same
    exact asks.visible
  | block ready blocked =>
    refine .inr ⟨_, rfl, fun site same => ?_⟩
    cases same
    exact ⟨_, ready.task, ready.unended, nofun⟩
  | refuse ready complete route =>
    refine .inr ⟨_, rfl, fun site same => ?_⟩
    cases same
    exact ⟨_, ready.task, ready.unended, nofun⟩
  | call ready complete route =>
    refine .inr ⟨_, rfl, fun site same => ?_⟩
    cases same
    exact ⟨_, ready.task, ready.unended, nofun⟩
  | finish task called answered unended =>
    refine .inr ⟨_, rfl, fun site same => ?_⟩
    cases same
    exact ⟨_, task, unended, nofun⟩
  | log => exact .inr ⟨_, rfl, fun _ same => by cases same⟩
  | arrive =>
    refine .inr ⟨_, rfl, fun site same => ?_⟩
    cases same
    obtain ⟨⟨task, ready⟩, unended⟩ :=
      h.underway _ (List.mem_append_right _ (List.mem_cons_self ..))
    exact ⟨task, ready, unended, nofun⟩
  | elapse => exact .inl rfl

/-- A move adds at most one event, about a step that has a task. -/
theorem Sound.move_event (h : s.Sound stage st) (move : s.Move stage st st') :
    ∃ added, st'.trace = st.trace ++ added ∧ ∀ event ∈ added, ∀ site, event.step? = some site →
      ∃ task, s.task? stage st.trace site = some task ∧
        ∀ index, event = .forced site index → index < task.limit := by
  rcases h.move_added move with same | ⟨event, same, about⟩
  · exact ⟨[], same.trans (List.append_nil _).symm, fun _ hmem => absurd hmem List.not_mem_nil⟩
  · refine ⟨[event], same, fun event' hmem site step => ?_⟩
    rw [List.mem_singleton.mp hmem] at step ⊢
    obtain ⟨task, ready, -, less⟩ := about site step
    exact ⟨task, ready, less⟩

/-- Moves add events about steps that have a task when they are made. -/
theorem Sound.moves_events (h : s.Sound stage st) (moves : s.Moves stage st st') :
    ∃ added, st'.trace = st.trace ++ added ∧ ∀ event ∈ added, ∀ site, event.step? = some site →
      ∃ task, s.task? stage st'.trace site = some task ∧
        ∀ index, event = .forced site index → index < task.limit := by
  induction moves with
  | refl => exact ⟨[], (List.append_nil _).symm, fun _ hmem => absurd hmem List.not_mem_nil⟩
  | @tail mid last moves move ih =>
    obtain ⟨added, same, about⟩ := ih
    obtain ⟨more, same', about'⟩ := (h.moves moves).move_event move
    refine ⟨added ++ more, by rw [same', same, List.append_assoc], fun event hmem site hs => ?_⟩
    rcases List.mem_append.mp hmem with hmem | hmem
    · obtain ⟨task, ready, less⟩ := about event hmem site hs
      exact ⟨task, s.task?_mono move.trace_prefix stage ready, less⟩
    · obtain ⟨task, ready, less⟩ := about' event hmem site hs
      exact ⟨task, s.task?_mono move.trace_prefix stage ready, less⟩

/-- **Only so much can happen while a group is run.** -/
theorem Sound.keys_length_le (h : s.Sound stage start) (moves : s.Moves stage start st) :
    st.trace.keys.length ≤ start.trace.keys.length + (s.grid stage).length := by
  obtain ⟨added, same, about⟩ := h.moves_events moves
  have nodup := (h.moves moves).keys
  rw [same, Trace.keys, List.filterMap_append] at nodup
  have sub : Trace.keys added ⊆ s.grid stage := by
    intro key hkey
    obtain ⟨event, hmem, same⟩ := List.mem_filterMap.mp hkey
    cases event with
    | called site call =>
      cases same
      obtain ⟨task, ready, -⟩ := about _ hmem site rfl
      exact mem_grid ready (by omega)
    | answered site result =>
      cases same
      obtain ⟨task, ready, -⟩ := about _ hmem site rfl
      exact mem_grid ready (by omega)
    | ended site ending =>
      cases same
      obtain ⟨task, ready, -⟩ := about _ hmem site rfl
      exact mem_grid ready (by omega)
    | forced site index =>
      cases same
      obtain ⟨task, ready, less⟩ := about _ hmem site rfl
      have visible := Nat.lt_of_lt_of_le (less index rfl) (task?_limit_le ready)
      exact mem_grid ready (by omega)
    | logged => cases same
  have small := (List.nodup_append.mp nodup).2.1.length_le_of_subset sub
  rw [same, Trace.keys, List.filterMap_append, List.length_append]
  exact Nat.add_le_add_left small _

/-! ## Results that arrive -/

/-- Results arrive by moves. -/
theorem arrive_moves (s : Session World) (stage : Stage) (world : World)
    (arrives : Delivery → Bool) (kept rest : List Delivery) (trace : Trace) :
    s.Moves stage ⟨world, kept ++ rest, trace⟩
      ⟨world, kept ++ rest.filter fun d => !arrives d,
        trace ++ (rest.filter arrives).map fun d => .answered d.step d.result⟩ := by
  induction rest generalizing kept trace with
  | nil =>
    rw [List.filter_nil, List.filter_nil, List.map_nil, List.append_nil, List.append_nil]
  | cons d rest ih =>
    cases arrived : arrives d with
    | true =>
      rw [List.filter_cons_of_pos arrived, List.filter_cons_of_neg (by rw [arrived]; decide),
        List.map_cons]
      have later := ih kept (trace ++ [.answered d.step d.result])
      rw [List.append_assoc, List.singleton_append] at later
      exact .head .arrive later
    | false =>
      rw [List.filter_cons_of_pos (by rw [arrived]; rfl),
        List.filter_cons_of_neg (by rw [arrived]; decide)]
      have later := ih (kept ++ [d]) trace
      rw [List.append_assoc, List.append_assoc, List.singleton_append, List.singleton_append] at later
      exact later

/-- Time that passes, and the results that have arrived then. -/
theorem after_moves (s : Session World) (stage : Stage) (st : RunState World) (delay : Nat) :
    s.Moves stage st (st.after delay) := by
  rw [RunState.after, List.partition_eq_filter_filter]
  have arrives := s.arrive_moves stage st.world (fun d => decide (d.delay ≤ delay)) []
    st.underway st.trace
  exact arrives.tail (.elapse delay)

theorem receive_moves (s : Session World) (stage : Stage) (st : RunState World) :
    s.Moves stage st st.receive := by
  rw [RunState.receive]
  split
  · exact s.after_moves stage st _
  · exact .refl

/-- If a result is on its way, one arrives. -/
theorem receive_busy {st : RunState World} {d : Delivery} (hd : d ∈ st.underway) :
    st.trace.keys.length < st.receive.trace.keys.length := by
  rw [RunState.receive]
  split
  · next delay least =>
    obtain ⟨first, hfirst, same⟩ := List.mem_map.mp (List.min?_mem least)
    rw [RunState.after, List.partition_eq_filter_filter]
    dsimp only
    rw [Trace.keys, Trace.keys, List.filterMap_append, List.length_append]
    have arrived : first ∈ st.underway.filter fun d => decide (d.delay ≤ delay) :=
      List.mem_filter.mpr ⟨hfirst, decide_eq_true (Nat.le_of_eq same)⟩
    have key : (first.step, 1) ∈ Trace.keys ((st.underway.filter fun d =>
        decide (d.delay ≤ delay)).map fun d => .answered d.step d.result) :=
      List.mem_filterMap.mpr ⟨_, List.mem_map_of_mem arrived, rfl⟩
    have busy := List.length_pos_of_mem key
    rw [Trace.keys] at busy
    omega
  · next none =>
    rw [List.min?_eq_none_iff, List.map_eq_nil_iff] at none
    rw [none] at hd
    cases hd

/-! ## Running a group to its end -/

/-- An advance that has added an event has made something happen. -/
theorem Advances.busy {about : Occurrence → Prop} (h : s.Advances stage about st st')
    (grown : st'.trace ≠ st.trace) : st.trace.keys.length < st'.trace.keys.length := by
  obtain ⟨added, same, -, busy⟩ := h.frame
  have some : added ≠ [] := by
    rintro rfl
    exact grown (same.trans (List.append_nil _))
  obtain ⟨event, hmem, step⟩ := busy some
  have key : ∃ key, key ∈ Trace.keys added := by
    cases event with
    | forced site index => exact ⟨_, List.mem_filterMap.mpr ⟨_, hmem, rfl⟩⟩
    | called site call => exact ⟨_, List.mem_filterMap.mpr ⟨_, hmem, rfl⟩⟩
    | answered site result => exact ⟨_, List.mem_filterMap.mpr ⟨_, hmem, rfl⟩⟩
    | ended site ending => exact ⟨_, List.mem_filterMap.mpr ⟨_, hmem, rfl⟩⟩
    | logged => exact absurd rfl step
  obtain ⟨key, hkey⟩ := key
  have positive := List.length_pos_of_mem hkey
  rw [Trace.keys] at positive
  rw [same, Trace.keys, Trace.keys, List.filterMap_append, List.length_append]
  omega

theorem Moves.keys_length_le (h : s.Moves stage st st') :
    st.trace.keys.length ≤ st'.trace.keys.length := by
  obtain ⟨added, same⟩ := h.trace_prefix
  rw [← same, Trace.keys, Trace.keys, List.filterMap_append, List.length_append]
  omega

/-- A group that has been run to its end: by moves, and with its envelope. -/
structure Settled (s : Session World) (stage : Stage) (st : RunState World)
    (p : Envelope × RunState World) : Prop where
  moves : s.Moves stage st p.2
  outcome : s.outcome? p.2.trace stage.pipeline stage.group [] stage.body = some p.1

/-- A round of advances that ends with no envelope: results arrive, at once if steps have moved, and
else after the least time. -/
def afterRound (st st' : RunState World) : RunState World :=
  if st'.trace.length = st.trace.length then st'.receive else st'.after 0

/-- A round that ends with no envelope has added to what has happened, itself or by a result that
arrives after it. -/
theorem round_busy {result : Option Envelope} (sound : s.Sound stage st')
    (spec : s.GroupSpec stage [] stage.body st (result, st')) (unfinished : result = none) :
    s.Moves stage st (afterRound st st') ∧
      st.trace.keys.length < (afterRound st st').trace.keys.length := by
  obtain ⟨advances, told, waits⟩ := spec
  dsimp only at advances told waits
  by_cases still : st'.trace.length = st.trace.length
  · have same := (advances.trace_prefix.eq_of_length still.symm).symm
    obtain ⟨d, hd⟩ := exists_underway sound (waits same) (told.symm.trans unfinished)
    have busy := receive_busy hd
    rw [same] at busy
    rw [afterRound, if_pos still]
    exact ⟨advances.moves.trans (s.receive_moves stage st'), busy⟩
  · have busy := advances.busy fun same => still (congrArg List.length same)
    have later := s.after_moves stage st' 0
    rw [afterRound, if_neg still]
    exact ⟨advances.moves.trans later, Nat.lt_of_lt_of_le busy later.keys_length_le⟩

/-- With enough advances a group ends, for each round that does not end it adds to what has
happened. -/
theorem settle_spec (bound : Nat) (h : s.Sound stage start) (moves : s.Moves stage start st)
    (enough : start.trace.keys.length + (s.grid stage).length < st.trace.keys.length + bound) :
    s.Settled stage st ((Run.settle
      (s.advanceGroup stage.pipeline stage.group [] stage.previous stage.body) bound).run st) := by
  induction bound generalizing st with
  | zero =>
    have most := h.keys_length_le moves
    omega
  | succ bound ih =>
    have spec := advanceGroup_spec stage.body [] st (Turn.start s stage st.trace)
    rw [Run.settle, run_bind, run_get]
    dsimp only
    rw [run_bind]
    generalize (s.advanceGroup stage.pipeline stage.group [] stage.previous stage.body).run st = p
      at spec ⊢
    obtain ⟨result, st1⟩ := p
    cases result with
    | some result => exact ⟨spec.advances.moves, spec.result.symm⟩
    | none =>
      have sound := h.moves (moves.trans spec.advances.moves)
      obtain ⟨made, more⟩ := round_busy sound spec rfl
      have rest := ih (moves.trans made) (by omega)
      exact ⟨made.trans rest.moves, rest.outcome⟩

/-- **A group is run to its end by moves**, with the number of advances that it is given. -/
theorem runGroup_spec (h : s.Sound stage st) : s.Settled stage st
    ((s.runGroup stage.pipeline stage.group stage.previous stage.body).run st) := by
  refine settle_spec _ h .refl ?_
  rw [← length_grid]
  omega

end Session

end CapabilityPipeline
