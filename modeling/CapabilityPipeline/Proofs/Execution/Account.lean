import CapabilityPipeline.Proofs.Execution.Stretches

/-!
# The log is a faithful account

The log of a run tells of every group that was run, in order, and of every binding that was
evaluated for a group, before the entry of the group. The trace falls into stretches, one for each
group, and each ends with the entry of its group.

Results:

* `LogEntry.outline`: what an entry tells, texts of drivers aside.
* `Stretch.Told`, `Listed`: what a stretch and what the entries of a pipeline tell.
* `ProgramRun.Account`: what the log tells of a run.
* `Engine.run_account`: the log of every run tells this.
-/

namespace CapabilityPipeline

open Json (Value)

/-! ## Entries and stretches -/

namespace LogEntry

/-- The entry of a group. All others are those of bindings. -/
def isGroup (e : LogEntry) : Bool :=
  e.pipeline.isSome

/-- What an entry tells, texts of drivers and times aside. -/
structure Outline where
  pipeline : Option Nat
  group : Option Nat
  kind : String
  label : String
  success : Bool
  deriving DecidableEq

/-- The outline of an entry. -/
def outline (e : LogEntry) : Outline :=
  ⟨e.pipeline, e.group, e.kind, e.label, e.success⟩

theorem map_label (entries : List LogEntry) :
    (entries.map outline).map Outline.label = entries.map label := by
  rw [List.map_map]
  rfl

/-- The entry tells a result. -/
structure Tells (e : LogEntry) (result : Envelope) : Prop where
  success : e.success = result.success
  summary : e.summary = result.summary
  error : e.error = result.error

/-- The entry of a binding. -/
structure IsOf (e : LogEntry) (b : Binding) : Prop where
  pipeline : e.pipeline = none
  group : e.group = none
  kind : e.kind = "binding"
  label : e.label = s!"${b.name}"

end LogEntry

theorem Trace.tells_entry (trace : Trace) (place : Option (Nat × Nat)) (kind label : String)
    (result : Envelope) (time : String) : (trace.entry place kind label result time).Tells result :=
  ⟨rfl, rfl, rfl⟩

/-- A binding is asked for, and has not been before. -/
def FirstForced (before events : Trace) (index : Nat) : Prop :=
  (∃ site, .forced site index ∈ events) ∧ ∀ site, .forced site index ∉ before

/-- While a group is run, after what has happened before, those bindings are told of that are asked
for the first time. -/
structure Stretch.Told (bindings : List Binding) (before : Trace) (stretch : Stretch) : Prop where
  /-- What happens to steps of groups happens to steps of this one. -/
  inside : ∀ event ∈ stretch.events, ∀ pipeline group path,
    event.step? = some (.leaf pipeline group path) →
    stretch.entry.pipeline = some pipeline ∧ stretch.entry.group = some group
  /-- An entry tells the result of a binding that is asked for the first time. -/
  entries : ∀ e, .logged e ∈ stretch.events → ∃ index b ending, bindings[index]? = some b ∧
    e.IsOf b ∧ FirstForced before stretch.events index ∧
    .ended (.binding index) ending ∈ stretch.events ∧ e.Tells ending.envelope
  /-- A binding that is asked for the first time has its entry. -/
  forced : ∀ index, FirstForced before stretch.events index →
    ∃ b e, bindings[index]? = some b ∧ .logged e ∈ stretch.events ∧ e.IsOf b

/-- Stretch after stretch, those bindings are told of that are asked for the first time. -/
def ToldFrom (bindings : List Binding) : (before : Trace) → List Stretch → Prop
  | _, [] => True
  | before, stretch :: rest =>
    stretch.Told bindings before ∧ ToldFrom bindings (before ++ stretch.trace) rest

/-- The entries of a pipeline tell its groups from the first on, without a gap, under a policy for
failures. -/
structure Listed (failure : FailurePolicy) (pipeline : Nat) (first : Nat) (groups : List Group)
    (entries : List LogEntry) : Prop where
  each : ∀ k entry, entries[k]? = some entry → ∃ group, groups[k]? = some group ∧
    entry.pipeline = some pipeline ∧ entry.group = some (first + k) ∧
    entry.kind = group.kind ∧ entry.label = group.render
  aborts : failure = .abort →
    (∀ k entry, entries[k]? = some entry → k + 1 < entries.length → entry.success = true) ∧
      (entries.length = groups.length ∨ ∃ entry, entries.getLast? = some entry ∧
        entry.success = false)
  carriesOn : failure = .carryOn → entries.length = groups.length

/-- The account that the log gives of a run: stretch after stretch, pipeline after pipeline. -/
structure ProgramRun.Account (r : ProgramRun) (p : Program) (failure : FailurePolicy)
    (parts : List (List Stretch)) : Prop where
  results : r.results.length = p.pipelines.length
  count : parts.length = p.pipelines.length
  /-- The stretches are all that happens, and the log is what is written in them. -/
  trace : r.trace = parts.flatten.flatMap Stretch.trace
  entries : r.log.entries = r.trace.filterMap Event.entry?
  numbered : ∀ k entry, r.log.entries[k]? = some entry → entry.seq = k + 1
  groups : r.log.entries.filter LogEntry.isGroup = parts.flatten.map Stretch.entry
  listed : ∀ i pipeline part, p.pipelines[i]? = some pipeline → parts[i]? = some part →
    Listed failure i 0 pipeline.groups (part.map Stretch.entry)
  /-- The last entry of a pipeline tells its result. -/
  last : ∀ (i : Nat) part result stretch, parts[i]? = some part → r.results[i]? = some result →
    part.getLast? = some stretch → stretch.entry.Tells result
  /-- No binding is told of twice. -/
  once : ((r.log.entries.filter fun e => !e.isGroup).map LogEntry.label).Nodup
  told : ToldFrom p.bindings [] parts.flatten
  status : r.log.finalStatus = "success" ↔ ∀ result ∈ r.results, result.success = true

namespace Listed

variable {failure : FailurePolicy} {pipeline first : Nat} {group : Group} {groups : List Group}
  {entry : LogEntry} {entries : List LogEntry}

/-- Where there are no groups there are no entries. -/
theorem nil (failure : FailurePolicy) (pipeline first : Nat) :
    Listed failure pipeline first [] [] := by
  refine ⟨fun _ _ found => ?_, fun _ => ⟨fun _ _ found => ?_, .inl rfl⟩, fun _ => rfl⟩
  · cases found
  · cases found

/-- An entry for one more group in front moves all others by one place. -/
theorem each_cons (here : entry.outline =
      ⟨some pipeline, some first, group.kind, group.render, entry.success⟩)
    (others : ∀ k entry, entries[k]? = some entry → ∃ g, groups[k]? = some g ∧
      entry.pipeline = some pipeline ∧ entry.group = some (first + 1 + k) ∧ entry.kind = g.kind ∧
      entry.label = g.render) (k : Nat) (e : LogEntry) (found : (entry :: entries)[k]? = some e) :
    ∃ g, (group :: groups)[k]? = some g ∧ e.pipeline = some pipeline ∧
      e.group = some (first + k) ∧ e.kind = g.kind ∧ e.label = g.render := by
  cases k with
  | zero =>
    cases found
    obtain ⟨hpipeline, hgroup, hkind, hlabel, -⟩ := LogEntry.Outline.mk.inj here
    exact ⟨group, rfl, hpipeline, hgroup, hkind, hlabel⟩
  | succ k =>
    rw [← Nat.add_assoc, Nat.add_right_comm]
    exact others k e found

/-- A group that fails ends the pipeline if failures do. -/
theorem abort (here : entry.outline =
      ⟨some pipeline, some first, group.kind, group.render, entry.success⟩)
    (policy : failure = .abort) (fails : entry.success = false) :
    Listed failure pipeline first (group :: groups) [entry] := by
  refine ⟨each_cons here fun _ _ found => (by cases found),
    fun _ => ⟨fun k e found more => ?_, .inr ⟨entry, rfl, fails⟩⟩, fun carriesOn => ?_⟩
  · rw [List.length_singleton] at more
    omega
  · cases policy.symm.trans carriesOn

/-- A group is told before the others, and has succeeded if failures end the pipeline. -/
theorem cons (here : entry.outline =
      ⟨some pipeline, some first, group.kind, group.render, entry.success⟩)
    (goes : failure = .abort → entry.success = true)
    (others : Listed failure pipeline (first + 1) groups entries) :
    Listed failure pipeline first (group :: groups) (entry :: entries) := by
  refine ⟨each_cons here others.each, fun policy => ?_, fun policy => ?_⟩
  · obtain ⟨succeed, ends⟩ := others.aborts policy
    refine ⟨fun k e found more => ?_, ?_⟩
    · cases k with
      | zero =>
        cases found
        exact goes policy
      | succ k => exact succeed k e found (Nat.lt_of_succ_lt_succ more)
    · rcases ends with all | ⟨e, last, fails⟩
      · exact .inl (by rw [List.length_cons, List.length_cons, all])
      · refine .inr ⟨e, ?_, fails⟩
        rw [List.getLast?_cons, last]
        rfl
  · rw [List.length_cons, List.length_cons, others.carriesOn policy]

end Listed

theorem Event.IsQuiet.entry?_eq {event : Event} (h : event.IsQuiet) : event.entry? = none := by
  cases event with
  | logged => exact h.elim
  | _ => rfl

theorem toldFrom_append {bindings : List Binding} {before : Trace} {first later : List Stretch} :
    ToldFrom bindings before (first ++ later) ↔ ToldFrom bindings before first ∧
      ToldFrom bindings (before ++ first.flatMap Stretch.trace) later := by
  induction first generalizing before with
  | nil => simp [ToldFrom]
  | cons stretch rest ih =>
    rw [List.cons_append, ToldFrom, ToldFrom, ih, List.flatMap_cons, ← List.append_assoc, and_assoc]

namespace Session

variable {World : Type} {s : Session World}

/-! ## Traces and stretches -/

theorem TellsGroups.trace_eq {pipeline position : Nat} {previous : Option Envelope}
    {groups : List Group} {st st' : RunState World} {result : Envelope} {stretches : List Stretch}
    (h : s.TellsGroups pipeline position previous groups st result st' stretches) :
    st'.trace = st.trace ++ stretches.flatMap Stretch.trace := by
  induction h with
  | empty => simp
  | done => simp
  | abort run added aborts =>
    rw [trace_afterGroup added, List.flatMap_singleton]
  | next run added goes others ih =>
    rw [ih, trace_afterGroup added, List.flatMap_cons, List.append_assoc]

theorem TellsPipelines.trace_eq {position : Nat} {pipelines : List Pipeline}
    {st st' : RunState World} {results : List Envelope} {parts : List (List Stretch)}
    (h : s.TellsPipelines position pipelines st results st' parts) :
    st'.trace = st.trace ++ parts.flatten.flatMap Stretch.trace := by
  induction h with
  | done => simp
  | next first others ih =>
    rw [ih, first.trace_eq, List.flatten_cons, List.flatMap_append, List.append_assoc]

/-- What is kept when something quiet happens, when a binding ends and is told, and when a group is
told. -/
structure KeptByTelling (s : Session World) (I : Trace → Prop) : Prop where
  quiet : ∀ trace event, event.IsQuiet → I trace → I (trace ++ [event])
  binding : ∀ trace index b ending, s.bindings[index]? = some b → I trace →
    I (trace ++ [.ended (.binding index) ending] ++
      [.logged (s.bindingEntry (trace ++ [.ended (.binding index) ending]) b ending.envelope)])
  group : ∀ trace stage result, I trace → I (trace ++ [.logged (s.groupEntry stage trace result)])

namespace KeptByTelling

variable {I : Trace → Prop}

theorem grows (kept : s.KeptByTelling I) {start trace : Trace} (h : s.Grows start trace)
    (holds : I start) : I trace := by
  induction h with
  | refl => exact holds
  | quiet before quiet ih => exact kept.quiet _ _ quiet ih
  | binding before known ih => exact kept.binding _ _ _ _ known ih

theorem groups (kept : s.KeptByTelling I) {pipeline position : Nat} {previous : Option Envelope}
    {groups : List Group} {st st' : RunState World} {result : Envelope} {stretches : List Stretch}
    (h : s.TellsGroups pipeline position previous groups st result st' stretches)
    (holds : I st.trace) : I st'.trace := by
  induction h with
  | empty => exact holds
  | done => exact holds
  | abort run added aborts => exact kept.group _ _ _ (kept.grows run.grows holds)
  | next run added goes others ih => exact ih (kept.group _ _ _ (kept.grows run.grows holds))

theorem pipelines (kept : s.KeptByTelling I) {position : Nat} {pipelines : List Pipeline}
    {st st' : RunState World} {results : List Envelope} {parts : List (List Stretch)}
    (h : s.TellsPipelines position pipelines st results st' parts) (holds : I st.trace) :
    I st'.trace := by
  induction h with
  | done => exact holds
  | next first others ih => exact ih (kept.groups first holds)

end KeptByTelling

/-! ## Positions -/

/-- The entries of a trace are numbered from one on, as far as words of 32 bits go. -/
def Numbered (trace : Trace) : Prop :=
  ∀ k entry, (trace.filterMap Event.entry?)[k]? = some entry →
    entry.seq = min (k + 1) (wordLimit32 - 1)

theorem Numbered.entry {trace : Trace} (h : Numbered trace) (place : Option (Nat × Nat))
    (kind label : String) (result : Envelope) (time : String) :
    Numbered (trace ++ [.logged (trace.entry place kind label result time)]) := by
  intro k entry found
  rw [List.filterMap_append] at found
  rcases Nat.lt_or_ge k (trace.filterMap Event.entry?).length with before | after
  · rw [List.getElem?_append_left before] at found
    exact h k entry found
  · rw [List.getElem?_append_right after] at found
    obtain ⟨last, same⟩ := List.getElem?_eq_some_iff.mp found
    have here : k = (trace.filterMap Event.entry?).length := by
      have := Nat.lt_one_iff.mp last
      omega
    subst same here
    simp [Trace.entry, Event.entry?]

theorem Numbered.silent {trace : Trace} (h : Numbered trace) (event : Event)
    (silent : event.entry? = none) : Numbered (trace ++ [event]) := by
  unfold Numbered
  rw [List.filterMap_append, List.filterMap_cons_none silent, List.filterMap_nil, List.append_nil]
  exact h

theorem keptByTelling_numbered (s : Session World) : s.KeptByTelling Numbered where
  quiet _ event quiet h := h.silent event quiet.entry?_eq
  binding _ index _ ending _ h :=
    (h.silent (.ended (.binding index) ending) rfl).entry _ _ _ _ _
  group _ _ _ h := h.entry _ _ _ _ _

/-! ## Groups -/

/-- The entry of a group in outline. -/
theorem outline_groupEntry (s : Session World) (stage : Stage) (trace : Trace) (result : Envelope) :
    (s.groupEntry stage trace result).outline = ⟨some stage.pipeline, some stage.group,
      stage.body.kind, stage.body.render, result.success⟩ :=
  rfl

theorem TellsGroups.listed {pipeline position : Nat} {previous : Option Envelope}
    {groups : List Group} {st st' : RunState World} {result : Envelope} {stretches : List Stretch}
    (h : s.TellsGroups pipeline position previous groups st result st' stretches) :
    Listed s.engine.settings.failure pipeline position groups (stretches.map Stretch.entry) := by
  induction h with
  | empty => exact .nil _ _ _
  | done => exact .nil _ _ _
  | @abort _ _ _ _ _ _ result _ run added aborts =>
    obtain ⟨fails, policy⟩ := Bool.and_eq_true_iff.mp aborts
    have fails : result.success = false := by simpa using fails
    exact .abort (outline_groupEntry ..) (of_decide_eq_true policy) fails
  | @next _ _ _ _ _ _ _ result _ _ _ run added goes others ih =>
    refine .cons (outline_groupEntry ..) (fun policy => ?_) ih
    show result.success = true
    by_contra fails
    exact goes (by simp [policy, fails])

/-- The last entry of a pipeline tells its result. -/
theorem TellsGroups.last {pipeline position : Nat} {previous : Option Envelope}
    {groups : List Group} {st st' : RunState World} {result : Envelope} {stretches : List Stretch}
    (h : s.TellsGroups pipeline position previous groups st result st' stretches) {stretch : Stretch}
    (last : stretches.getLast? = some stretch) : stretch.entry.Tells result := by
  induction h with
  | empty => cases last
  | done => cases last
  | abort run added aborts =>
    cases last
    exact Trace.tells_entry ..
  | @next _ _ _ _ _ _ _ result _ _ stretches run added goes others ih =>
    cases stretches with
    | nil =>
      cases last
      cases others
      exact Trace.tells_entry ..
    | cons next more =>
      rw [List.getLast?_cons_cons] at last
      exact ih last

/-! ## Bindings -/

/-- What a growing trace tells: an entry for every binding that ends, and nothing else. -/
theorem Grows.told {start trace : Trace} (h : s.Grows start trace) :
    ∃ events, trace = start ++ events ∧
      (∀ e, .logged e ∈ events → ∃ index b ending, s.bindings[index]? = some b ∧ e.IsOf b ∧
        .ended (.binding index) ending ∈ events ∧ e.Tells ending.envelope) ∧
      ∀ index ending, .ended (.binding index) ending ∈ events →
        ∃ b e, s.bindings[index]? = some b ∧ .logged e ∈ events ∧ e.IsOf b := by
  induction h with
  | refl =>
    exact ⟨[], (List.append_nil _).symm, fun _ none => (by cases none), fun _ _ none => by cases none⟩
  | @quiet trace event before quiet ih =>
    obtain ⟨events, rfl, entries, endings⟩ := ih
    refine ⟨events ++ [event], List.append_assoc .., fun e hmem => ?_, fun index ending hmem => ?_⟩
    · rcases List.mem_append.mp hmem with old | new
      · obtain ⟨index, b, ending, known, isOf, ended, tells⟩ := entries e old
        exact ⟨index, b, ending, known, isOf, List.mem_append_left _ ended, tells⟩
      · rw [← List.mem_singleton.mp new] at quiet
        exact quiet.elim
    · rcases List.mem_append.mp hmem with old | new
      · obtain ⟨b, e, known, logged, isOf⟩ := endings index ending old
        exact ⟨b, e, known, List.mem_append_left _ logged, isOf⟩
      · rw [← List.mem_singleton.mp new] at quiet
        exact quiet.elim
  | @binding trace index b ending before known ih =>
    obtain ⟨events, rfl, entries, endings⟩ := ih
    have isOf (trace : Trace) (result : Envelope) : (s.bindingEntry trace b result).IsOf b :=
      ⟨rfl, rfl, rfl, rfl⟩
    refine ⟨events ++ [.ended (.binding index) ending, .logged _], by
      rw [List.append_assoc, List.append_assoc]; rfl, fun e hmem => ?_, fun index' ending' hmem => ?_⟩
    · rcases List.mem_append.mp hmem with old | new
      · obtain ⟨index, b, ending, known, isOf, ended, tells⟩ := entries e old
        exact ⟨index, b, ending, known, isOf, List.mem_append_left _ ended, tells⟩
      · simp only [List.mem_cons, List.not_mem_nil, or_false, reduceCtorEq, false_or,
          Event.logged.injEq] at new
        subst new
        exact ⟨index, b, ending, known, isOf _ _, by simp, Trace.tells_entry ..⟩
    · rcases List.mem_append.mp hmem with old | new
      · obtain ⟨b, e, known, logged, isOf⟩ := endings index' ending' old
        exact ⟨b, e, known, List.mem_append_left _ logged, isOf⟩
      · simp only [List.mem_cons, List.not_mem_nil, or_false, reduceCtorEq,
          Event.ended.injEq, Occurrence.binding.injEq] at new
        obtain ⟨rfl, rfl⟩ := new
        exact ⟨b, _, known, List.mem_append_right _ (List.mem_cons_of_mem _ List.mem_cons_self),
          isOf _ _⟩

/-- What holds between groups: bindings have ended if they have been asked for, and only then, and
names stand for those that have been asked for. -/
structure Between (s : Session World) (st : RunState World) : Prop where
  rests : s.Rests st
  named : ∀ site index, .forced site index ∈ st.trace →
    ∃ name b, lastBinding? name s.bindings = some (index, b)
  evaluated : ∀ site index, .forced site index ∈ st.trace →
    ∃ ending, .ended (.binding index) ending ∈ st.trace
  asked : ∀ index ending, .ended (.binding index) ending ∈ st.trace →
    ∃ site, .forced site index ∈ st.trace

theorem Between.initial (s : Session World) (world : World) :
    s.Between (Engine.initial world) where
  rests stage := .initial s stage world
  named _ _ none := by cases none
  evaluated _ _ none := by cases none
  asked _ _ none := by cases none

theorem move_named {stage : Stage} {st st' : RunState World} (move : s.Move stage st st')
    (named : ∀ site index, .forced site index ∈ st.trace →
      ∃ name b, lastBinding? name s.bindings = some (index, b))
    (site : Occurrence) (index : Nat) (forced : .forced site index ∈ st'.trace) :
    ∃ name b, lastBinding? name s.bindings = some (index, b) := by
  cases move with
  | force ready asks new =>
    rcases List.mem_append.mp forced with old | added
    · exact named site index old
    · cases List.mem_singleton.mp added
      obtain ⟨before, name, rest, found, b, -, -, refers, -⟩ := asks
      exact ⟨name, b, refers⟩
  | elapse => exact named site index forced
  | _ =>
    rcases List.mem_append.mp forced with old | added
    · exact named site index old
    · cases List.mem_singleton.mp added

namespace GroupRun

variable {stage : Stage} {st st' : RunState World} {result : Envelope}

theorem named (run : s.GroupRun stage st result st') (between : s.Between st) (site : Occurrence)
    (index : Nat) (forced : .forced site index ∈ st'.trace) :
    ∃ name b, lastBinding? name s.bindings = some (index, b) :=
  run.moves.invariant (between.rests stage) between.named
    (fun _ _ _ named move => move_named move named) site index forced

/-- A binding that has been asked for has ended when the group has its envelope. -/
theorem evaluated (run : s.GroupRun stage st result st') (between : s.Between st)
    (site : Occurrence) (index : Nat) (forced : .forced site index ∈ st'.trace) :
    ∃ ending, .ended (.binding index) ending ∈ st'.trace := by
  obtain ⟨name, b, refers⟩ := run.named between site index forced
  have ready : s.task? stage st'.trace (.binding index) = some ⟨b.step, none, index⟩ := by
    rw [task?, (lastBinding?_mem refers).1]
    cases kept : st'.trace.keeper? index with
    | some keeper => rfl
    | none => exact absurd forced (Trace.keeper?_eq_none.mp kept site)
  obtain ⟨ending, ended⟩ := ((between.rests stage).moves run.moves).task_ended run.outcome ready
  exact ⟨ending, Trace.mem_of_ending? ended⟩

/-- A binding that has ended has been asked for. -/
theorem asked (run : s.GroupRun stage st result st') (between : s.Between st) (index : Nat)
    (ending : Ending) (ended : .ended (.binding index) ending ∈ st'.trace) :
    ∃ site, .forced site index ∈ st'.trace := by
  obtain ⟨added, same, about⟩ := (between.rests stage).moves_events run.moves
  rw [same] at ended
  rcases List.mem_append.mp ended with old | new
  · obtain ⟨site, forced⟩ := between.asked index ending old
    exact ⟨site, run.moves.trace_prefix.subset forced⟩
  · obtain ⟨task, ready, -⟩ := about _ new _ rfl
    obtain ⟨⟨keeper, kept⟩, -⟩ := task?_binding ready
    exact ⟨keeper, Trace.mem_of_keeper? kept⟩

/-- What holds between groups holds after the group. -/
theorem between (run : s.GroupRun stage st result st') (before : s.Between st) :
    s.Between (s.afterGroup stage result st') := by
  have old {event : Event} (unlogged : ∀ e, event ≠ .logged e)
      (hmem : event ∈ (s.afterGroup stage result st').trace) : event ∈ st'.trace := by
    rcases List.mem_append.mp hmem with there | new
    · exact there
    · exact absurd (List.mem_singleton.mp new) (unlogged _)
  refine ⟨run.rests before.rests, fun site index forced => ?_,
    fun site index forced => ?_, fun index ending ended => ?_⟩
  · exact run.named before site index (old nofun forced)
  · obtain ⟨ending, ended⟩ := run.evaluated before site index (old nofun forced)
    exact ⟨ending, List.mem_append_left _ ended⟩
  · obtain ⟨site, forced⟩ := run.asked before index ending (old nofun ended)
    exact ⟨site, List.mem_append_left _ forced⟩

/-- **A group that is run tells of the bindings that are asked for the first time.** -/
theorem told (run : s.GroupRun stage st result st') (before : s.Between st) {events : Trace}
    (added : st'.trace = st.trace ++ events) :
    (s.stretch stage events result st').Told s.bindings st.trace := by
  obtain ⟨events', same', entries, endings⟩ := run.grows.told
  cases List.append_cancel_left (added.symm.trans same')
  have sound := (before.rests stage).moves run.moves
  have parts (event : Event) : event ∈ st'.trace ↔ event ∈ st.trace ∨ event ∈ events := by
    rw [added, List.mem_append]
  -- a binding ends once, so that it ends after it has been asked for the first time
  have first (index : Nat) : FirstForced st.trace events index ↔
      ∃ ending, .ended (.binding index) ending ∈ events := by
    constructor
    · rintro ⟨⟨site, forced⟩, new⟩
      obtain ⟨ending, ended⟩ := run.evaluated before site index ((parts _).mpr (.inr forced))
      rcases (parts _).mp ended with old | ended
      · obtain ⟨site', forced'⟩ := before.asked index ending old
        exact absurd forced' (new site')
      · exact ⟨ending, ended⟩
    · rintro ⟨ending, ended⟩
      have new (site : Occurrence) : .forced site index ∉ st.trace := by
        intro forced
        obtain ⟨ending', ended'⟩ := before.evaluated site index forced
        have keys := sound.keys
        rw [added, Trace.keys, List.filterMap_append, List.nodup_append] at keys
        exact keys.2.2 _ (List.mem_filterMap.mpr ⟨_, ended', rfl⟩) _
          (List.mem_filterMap.mpr ⟨_, ended, rfl⟩) rfl
      obtain ⟨site, forced⟩ := run.asked before index ending ((parts _).mpr (.inr ended))
      exact ⟨⟨site, ((parts _).mp forced).resolve_left (new site)⟩, new⟩
  refine ⟨fun event hmem pipeline group path step => ?_, fun e logged => ?_, fun index asked => ?_⟩
  · obtain ⟨added', same, about⟩ := (before.rests stage).moves_events run.moves
    cases List.append_cancel_left (added.symm.trans same)
    obtain ⟨task, ready, -⟩ := about event hmem _ step
    obtain ⟨rfl, rfl, -⟩ := task?_leaf ready
    exact ⟨rfl, rfl⟩
  · obtain ⟨index, b, ending, known, isOf, ended, tells⟩ := entries e logged
    exact ⟨index, b, ending, known, isOf, (first index).mpr ⟨ending, ended⟩, ended, tells⟩
  · obtain ⟨ending, ended⟩ := (first index).mp asked
    exact endings index ending ended

end GroupRun

theorem TellsGroups.told {pipeline position : Nat} {previous : Option Envelope}
    {groups : List Group} {st st' : RunState World} {result : Envelope} {stretches : List Stretch}
    (h : s.TellsGroups pipeline position previous groups st result st' stretches)
    (before : s.Between st) : ToldFrom s.bindings st.trace stretches ∧ s.Between st' := by
  induction h with
  | empty => exact ⟨trivial, before⟩
  | done => exact ⟨trivial, before⟩
  | abort run added aborts => exact ⟨⟨run.told before added, trivial⟩, run.between before⟩
  | next run added goes others ih =>
    obtain ⟨told, after⟩ := ih (run.between before)
    rw [trace_afterGroup added] at told
    exact ⟨⟨run.told before added, told⟩, after⟩

theorem TellsPipelines.told {position : Nat} {pipelines : List Pipeline} {st st' : RunState World}
    {results : List Envelope} {parts : List (List Stretch)}
    (h : s.TellsPipelines position pipelines st results st' parts) (before : s.Between st) :
    ToldFrom s.bindings st.trace parts.flatten ∧ s.Between st' := by
  induction h with
  | done => exact ⟨trivial, before⟩
  | next first others ih =>
    obtain ⟨told, between⟩ := first.told before
    obtain ⟨told', after⟩ := ih between
    rw [first.trace_eq] at told'
    exact ⟨toldFrom_append.mpr ⟨told, told'⟩, after⟩

theorem TellsGroups.isGroup {pipeline position : Nat} {previous : Option Envelope}
    {groups : List Group} {st st' : RunState World} {result : Envelope} {stretches : List Stretch}
    (h : s.TellsGroups pipeline position previous groups st result st' stretches)
    {stretch : Stretch} (hmem : stretch ∈ stretches) : stretch.entry.isGroup = true := by
  obtain ⟨k, found⟩ := List.mem_iff_getElem?.mp hmem
  obtain ⟨group, -, pipeline, -⟩ :=
    h.listed.each k stretch.entry (by rw [List.getElem?_map, found]; rfl)
  unfold LogEntry.isGroup
  rw [pipeline]
  rfl

theorem TellsPipelines.isGroup {position : Nat} {pipelines : List Pipeline}
    {st st' : RunState World} {results : List Envelope} {parts : List (List Stretch)}
    (h : s.TellsPipelines position pipelines st results st' parts) {stretch : Stretch}
    (hmem : stretch ∈ parts.flatten) : stretch.entry.isGroup = true := by
  induction h with
  | done => cases hmem
  | next first others ih =>
    rcases List.mem_append.mp hmem with here | later
    · exact first.isGroup here
    · exact ih later

/-! ## Outlines -/

/-- What the entry of a binding at an index tells, texts of drivers aside. -/
def bindingOutline (s : Session World) (index : Nat) (success : Bool) : LogEntry.Outline :=
  let name := (s.bindings[index]?.map Binding.name).getD ""
  ⟨none, none, "binding", s!"${name}", success⟩

end Session

/-- The binding that ends, and whether it has succeeded. -/
def Event.evaluated? : Event → Option (Nat × Bool)
  | ended (.binding index) ending => some (index, ending.envelope.success)
  | _ => none

theorem Event.IsQuiet.evaluated?_eq {event : Event} (h : event.IsQuiet) :
    event.evaluated? = none := by
  cases event with
  | ended site ending =>
    cases site with
    | binding => exact h.elim
    | _ => rfl
  | _ => rfl

/-- The bindings that have ended in a trace, in order, and whether they have succeeded. -/
def Trace.evaluated (trace : Trace) : List (Nat × Bool) :=
  trace.filterMap Event.evaluated?

theorem Trace.mem_evaluated {trace : Trace} {index : Nat} {success : Bool} :
    (index, success) ∈ trace.evaluated ↔ ∃ ending, .ended (.binding index) ending ∈ trace ∧
      ending.envelope.success = success := by
  rw [evaluated, List.mem_filterMap]
  constructor
  · rintro ⟨event, hmem, same⟩
    cases event with
    | ended site ending =>
      cases site with
      | binding other =>
        cases same
        exact ⟨ending, hmem, rfl⟩
      | _ => cases same
    | _ => cases same
  · rintro ⟨ending, hmem, rfl⟩
    exact ⟨_, hmem, rfl⟩

/-- The binding of which a key says that it has ended. -/
def endedBinding? : Occurrence × Nat → Option Nat
  | (.binding index, 2) => some index
  | _ => none

/-- Where nothing happens twice, no binding ends twice. -/
theorem Trace.evaluated_nodup {trace : Trace} (h : trace.keys.Nodup) :
    (trace.evaluated.map Prod.fst).Nodup := by
  have ends : trace.evaluated.map Prod.fst = trace.keys.filterMap endedBinding? := by
    rw [keys, evaluated, List.filterMap_filterMap, List.map_filterMap]
    refine List.filterMap_congr fun event _ => ?_
    cases event with
    | ended site ending => cases site <;> rfl
    | forced site index => cases site <;> rfl
    | called site call => cases site <;> rfl
    | answered site result => cases site <;> rfl
    | logged => rfl
  rw [ends]
  refine h.filterMap fun key key' index here there => ?_
  unfold endedBinding? at here there
  split at here
  · split at there
    · cases here
      cases there
      rfl
    · cases there
  · cases here

/-- The groups that stretches end with are all that is told but for bindings. -/
theorem ToldFrom.groups {bindings : List Binding} {before : Trace} {stretches : List Stretch}
    (told : ToldFrom bindings before stretches)
    (groups : ∀ stretch ∈ stretches, stretch.entry.isGroup = true) :
    ((stretches.flatMap Stretch.trace).filterMap Event.entry?).filter LogEntry.isGroup =
      stretches.map Stretch.entry := by
  induction stretches generalizing before with
  | nil => rfl
  | cons stretch rest ih =>
    obtain ⟨here, later⟩ := told
    obtain ⟨isGroup, others⟩ := List.forall_mem_cons.mp groups
    have bindings : (stretch.events.filterMap Event.entry?).filter LogEntry.isGroup = [] := by
      refine List.filter_eq_nil_iff.mpr fun e hmem => ?_
      obtain ⟨event, logged, same⟩ := List.mem_filterMap.mp hmem
      cases event with
      | logged entry =>
        cases same
        obtain ⟨index, b, ending, -, isOf, -⟩ := here.entries e logged
        rw [LogEntry.isGroup, isOf.pipeline]
        exact Bool.false_ne_true
      | _ => cases same
    rw [List.flatMap_cons, List.filterMap_append, List.filter_append, ih later others,
      Stretch.trace, List.filterMap_append, List.filter_append, bindings]
    show [stretch.entry].filter LogEntry.isGroup ++ rest.map Stretch.entry = _
    rw [List.filter_cons_of_pos isGroup]
    rfl

namespace Session

variable {World : Type} {s : Session World}

/-- The entries of bindings tell in order which bindings have ended, and how. -/
def Outlined (s : Session World) (trace : Trace) : Prop :=
  ((trace.filterMap Event.entry?).filter fun e => !e.isGroup).map LogEntry.outline =
    trace.evaluated.map fun (index, success) => s.bindingOutline index success

theorem Outlined.append {trace added : Trace} (h : s.Outlined trace) (h' : s.Outlined added) :
    s.Outlined (trace ++ added) := by
  unfold Outlined Trace.evaluated at h h' ⊢
  rw [List.filterMap_append, List.filterMap_append, List.filter_append, List.map_append,
    List.map_append, h, h']

theorem keptByTelling_outlined (s : Session World) : s.KeptByTelling s.Outlined where
  quiet trace event quiet h := by
    refine h.append ?_
    unfold Outlined Trace.evaluated
    rw [List.filterMap_cons_none quiet.entry?_eq, List.filterMap_cons_none quiet.evaluated?_eq]
    rfl
  binding trace index b ending known h := by
    have outline : s.bindingOutline index ending.envelope.success =
        ⟨none, none, "binding", s!"${b.name}", ending.envelope.success⟩ := by
      rw [bindingOutline, known]
      rfl
    rw [List.append_assoc]
    refine h.append ?_
    show [_] = [s.bindingOutline index ending.envelope.success]
    rw [outline]
    rfl
  group trace stage result h := h.append rfl

/-- Names stand for the bindings that have ended, so that no two of them have one label. -/
theorem Between.label_inj {st : RunState World} (h : s.Between st) {x y : Nat × Bool}
    (hx : x ∈ st.trace.evaluated) (hy : y ∈ st.trace.evaluated)
    (same : (s.bindingOutline x.1 x.2).label = (s.bindingOutline y.1 y.2).label) : x.1 = y.1 := by
  have refers {x : Nat × Bool} (hx : x ∈ st.trace.evaluated) :
      ∃ name b, lastBinding? name s.bindings = some (x.1, b) ∧
        (s.bindingOutline x.1 x.2).label = s!"${name}" := by
    obtain ⟨ending, ended, -⟩ := Trace.mem_evaluated.mp hx
    obtain ⟨site, forced⟩ := h.asked x.1 ending ended
    obtain ⟨name, b, refers⟩ := h.named site x.1 forced
    obtain ⟨known, rfl⟩ := lastBinding?_mem refers
    refine ⟨_, b, refers, ?_⟩
    rw [bindingOutline, known]
    rfl
  obtain ⟨name, b, refers₁, written₁⟩ := refers hx
  obtain ⟨name', b', refers₂, written₂⟩ := refers hy
  rw [written₁, written₂] at same
  cases (String.append_right_inj _).mp same
  exact (Prod.mk.inj (Option.some.inj (refers₁.symm.trans refers₂))).1

/-! ## Pipelines -/

section Pipelines

variable {position : Nat} {pipelines : List Pipeline} {st st' : RunState World}
  {results : List Envelope} {parts : List (List Stretch)}

theorem TellsPipelines.length_results
    (h : s.TellsPipelines position pipelines st results st' parts) :
    results.length = pipelines.length := by
  induction h with
  | done => rfl
  | next first others ih => rw [List.length_cons, List.length_cons, ih]

theorem TellsPipelines.length_parts
    (h : s.TellsPipelines position pipelines st results st' parts) :
    parts.length = pipelines.length := by
  induction h with
  | done => rfl
  | next first others ih => rw [List.length_cons, List.length_cons, ih]

/-- Every pipeline has its stretches and its result. -/
theorem TellsPipelines.each (h : s.TellsPipelines position pipelines st results st' parts)
    {i : Nat} {pipeline : Pipeline} {part : List Stretch} {result : Envelope}
    (hpipeline : pipelines[i]? = some pipeline) (hpart : parts[i]? = some part)
    (hresult : results[i]? = some result) : ∃ mid mid',
    s.TellsGroups (position + i) 0 none pipeline.groups mid result mid' part := by
  induction h generalizing i with
  | done => cases hpipeline
  | next first others ih =>
    cases i with
    | zero =>
      cases hpipeline
      cases hpart
      cases hresult
      exact ⟨_, _, first⟩
    | succ i =>
      rw [← Nat.add_assoc, Nat.add_right_comm]
      exact ih hpipeline hpart hresult

end Pipelines

end Session

/-! ## Runs -/

namespace Engine

variable {World : Type}

/-- **The log is a faithful account** of a run, unless it has more entries than can be numbered. -/
theorem run_account (e : Engine World) (p : Program) (context : Context) (time : String)
    (world : World) (few : (e.run p context time world).1.log.entries.length < wordLimit32) :
    ∃ parts, (e.run p context time world).1.Account p e.settings.failure parts := by
  obtain ⟨st, parts, tells, trace⟩ := e.run_tells p context time world
  have numbered := (Session.keptByTelling_numbered _).pipelines tells fun _ _ none => by cases none
  have outlined := (Session.keptByTelling_outlined _).pipelines tells rfl
  obtain ⟨told, between⟩ := tells.told (.initial _ world)
  have whole : (e.run p context time world).1.trace = parts.flatten.flatMap Stretch.trace :=
    trace.symm.trans tells.trace_eq
  have entries : (e.run p context time world).1.log.entries = st.trace.filterMap Event.entry? := by
    rw [trace]
    rfl
  have sameLength : parts.length = (e.run p context time world).1.results.length :=
    tells.length_parts.trans tells.length_results.symm
  refine ⟨parts, tells.length_results, tells.length_parts, whole, rfl, fun k entry found => ?_, ?_,
    fun i pipeline part hpipeline hpart => ?_, fun i part result stretch hpart hresult last => ?_,
    ?_, told, ?_⟩
  · have within := (List.getElem?_eq_some_iff.mp found).1
    rw [entries] at found
    rw [numbered k entry found]
    omega
  · rw [entries, trace, whole]
    exact told.groups fun stretch hmem => tells.isGroup hmem
  · have within := (List.getElem?_eq_some_iff.mp hpart).1
    rw [sameLength] at within
    obtain ⟨mid, mid', groups⟩ := tells.each hpipeline hpart (List.getElem?_eq_getElem within)
    rw [Nat.zero_add] at groups
    exact groups.listed
  · have within := (List.getElem?_eq_some_iff.mp hpart).1
    rw [tells.length_parts] at within
    obtain ⟨mid, mid', groups⟩ := tells.each (List.getElem?_eq_getElem within) hpart hresult
    exact groups.last last
  · have nodup := Trace.evaluated_nodup (between.rests ⟨0, 0, none, .parallel []⟩).keys
    rw [entries, ← LogEntry.map_label, outlined, List.map_map]
    refine nodup.of_map.map_on fun x hx y hy same => ?_
    exact List.inj_on_of_nodup_map nodup hx hy (between.label_inj hx hy same)
  · show (if (e.run p context time world).1.results.all Envelope.success then "success"
      else "failed") = "success" ↔ _
    rw [← List.all_eq_true]
    split
    · next success => simp [success]
    · next failure => simp [failure]

/-- Two bindings are told before the first group, and the third when it is asked for. -/
theorem run_account_diamond :
    (echoing.run .diamond (.ofRun "r") "" ()).1.log.entries.map LogEntry.kind =
        ["binding", "binding", "parallel", "binding", "fallback", "single"] ∧
      ∃ parts, (echoing.run .diamond (.ofRun "r") "" ()).1.Account .diamond .abort parts := by
  have few : (echoing.run .diamond (.ofRun "r") "" ()).1.log.entries.length < wordLimit32 := by
    decide +kernel
  exact ⟨by decide +kernel, run_account echoing .diamond (.ofRun "r") "" () few⟩

end Engine

end CapabilityPipeline
