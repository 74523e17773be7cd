import CapabilityPipeline.Proofs.Execution.Advance

/-!
# Groups advance by moves

Advancing a group advances the steps within it that are reached, and returns the envelope of the
group if enough of its steps have then ended. An advance that does nothing shows that every step
that is reached waits.

Results:

* `Session.outcome?_congr`: the envelope of a group depends on its own steps only.
* `Session.advanceGroup_spec`: a group is advanced by moves.
-/

namespace CapabilityPipeline

namespace Session

variable {World : Type} {s : Session World} {stage : Stage}

/-! ## Groups -/

/-- The turn of a group at a path has come: what is reached within it is reached within the group
that is being run. -/
def Turn (s : Session World) (stage : Stage) (trace : Trace) (path : List Nat) (g : Group) :
    Prop :=
  ∀ later, trace <+: later → ∀ below,
    s.reached? later stage.pipeline stage.group [] (path ++ below) stage.body =
      s.reached? later stage.pipeline stage.group path below g

theorem Turn.start (s : Session World) (stage : Stage) (trace : Trace) :
    s.Turn stage trace [] stage.body :=
  fun _ _ _ => rfl

theorem Turn.mono {trace later : Trace} {path : List Nat} {g : Group}
    (h : s.Turn stage trace path g) (grown : trace <+: later) : s.Turn stage later path g :=
  fun last grown' below => h last (grown.trans grown') below

theorem Turn.parallel {trace : Trace} {path : List Nat} {branches : List Group}
    (h : s.Turn stage trace path (.parallel branches)) {position : Nat} {branch : Group}
    (found : branches[position]? = some branch) :
    s.Turn stage trace (path ++ [position]) branch := by
  intro later grown below
  rw [List.append_assoc, List.singleton_append, h later grown (position :: below), reached?, found,
    Option.bind_some]

theorem Turn.fallback {trace : Trace} {path : List Nat} {branches : List Group}
    (h : s.Turn stage trace path (.fallback branches)) {position : Nat} {branch : Group}
    (found : branches[position]? = some branch)
    (failed : s.allFailed trace stage.pipeline stage.group path 0 (branches.take position) = true) :
    s.Turn stage trace (path ++ [position]) branch := by
  intro later grown below
  rw [List.append_assoc, List.singleton_append, h later grown (position :: below), reached?,
    if_pos (s.allFailed_mono grown _ _ path 0 _ failed), found, Option.bind_some]

/-- The steps of a group at a path, and all bindings. -/
def Inside (stage : Stage) (path : List Nat) (site : Occurrence) : Prop :=
  (∃ below, site = .leaf stage.pipeline stage.group (path ++ below)) ∨ ∃ index, site = .binding index

/-- Every step that is reached within a group and has not ended waits. -/
def AllWait (s : Session World) (stage : Stage) (trace : Trace) (path : List Nat) (g : Group) :
    Prop :=
  ∀ below step, s.reached? trace stage.pipeline stage.group path below g = some step →
    trace.ending? (.leaf stage.pipeline stage.group (path ++ below)) = none →
    Waits trace (.leaf stage.pipeline stage.group (path ++ below))

/-- The way in which an advance of a group ends: what it returns can be read off the trace, and if
it has done nothing, no step of the group can do anything. -/
structure GroupSpec (s : Session World) (stage : Stage) (path : List Nat) (g : Group)
    (st : RunState World) (p : Option Envelope × RunState World) : Prop where
  advances : s.Advances stage (Inside stage path) st p.2
  result : p.1 = s.outcome? p.2.trace stage.pipeline stage.group path g
  waits : p.2.trace = st.trace → s.AllWait stage p.2.trace path g

section Congr

variable (s : Session World) {trace other : Trace} {pipeline group : Nat}

mutual

/-- The envelope of a group depends on its own steps only. -/
theorem outcome?_congr (path : List Nat) : ∀ g : Group,
    (∀ below, trace.ending? (.leaf pipeline group (path ++ below)) =
      other.ending? (.leaf pipeline group (path ++ below))) →
    s.outcome? trace pipeline group path g = s.outcome? other pipeline group path g
  | .single _, h => by
    have same := h []
    rw [List.append_nil] at same
    rw [outcome?, outcome?, same]
  | .parallel branches, h => by
    rw [outcome?, outcome?, branchOutcomes?_congr path 0 branches h]
  | .fallback branches, h => by
    rw [outcome?, outcome?, fallbackOutcome?_congr path 0 [] branches h]

theorem branchOutcomes?_congr (path : List Nat) : ∀ (position : Nat) (branches : List Group),
    (∀ below, trace.ending? (.leaf pipeline group (path ++ below)) =
      other.ending? (.leaf pipeline group (path ++ below))) →
    s.branchOutcomes? trace pipeline group path position branches =
      s.branchOutcomes? other pipeline group path position branches
  | _, [], _ => by rw [branchOutcomes?, branchOutcomes?]
  | position, branch :: rest, h => by
    rw [branchOutcomes?, branchOutcomes?, branchOutcomes?_congr path (position + 1) rest h,
      outcome?_congr (path ++ [position]) branch fun below => by
        rw [List.append_assoc]
        exact h ([position] ++ below)]

theorem fallbackOutcome?_congr (path : List Nat) : ∀ (position : Nat) (errors : List String)
    (branches : List Group), (∀ below, trace.ending? (.leaf pipeline group (path ++ below)) =
      other.ending? (.leaf pipeline group (path ++ below))) →
    s.fallbackOutcome? trace pipeline group path position errors branches =
      s.fallbackOutcome? other pipeline group path position errors branches
  | _, _, [], _ => by rw [fallbackOutcome?, fallbackOutcome?]
  | position, errors, branch :: rest, h => by
    have first := outcome?_congr (path ++ [position]) branch fun below => by
      rw [List.append_assoc]
      exact h ([position] ++ below)
    rw [fallbackOutcome?, fallbackOutcome?, first]
    split
    · rfl
    · split
      · rfl
      · exact fallbackOutcome?_congr path (position + 1) _ rest h

end

end Congr

/-- The steps of the branches from a position on, and all bindings. -/
def InsideFrom (stage : Stage) (path : List Nat) (position : Nat) (site : Occurrence) : Prop :=
  (∃ later, position ≤ later ∧ ∃ below,
    site = .leaf stage.pipeline stage.group (path ++ [later] ++ below)) ∨
    ∃ index, site = .binding index

theorem Inside.of_branch {path : List Nat} {position : Nat} {site : Occurrence}
    (h : Inside stage (path ++ [position]) site) : InsideFrom stage path position site :=
  h.imp_left fun ⟨below, same⟩ => ⟨position, Nat.le_refl _, below, same⟩

theorem InsideFrom.inside {path : List Nat} {position : Nat} {site : Occurrence}
    (h : InsideFrom stage path position site) : Inside stage path site :=
  h.imp_left fun ⟨later, _, below, same⟩ => ⟨[later] ++ below, by rw [same, List.append_assoc]⟩

theorem InsideFrom.mono {path : List Nat} {position earlier : Nat} {site : Occurrence}
    (h : InsideFrom stage path position site) (le : earlier ≤ position) :
    InsideFrom stage path earlier site :=
  h.imp_left fun ⟨later, less, found⟩ => ⟨later, Nat.le_trans le less, found⟩

/-- The steps of a branch are not those of later branches. -/
theorem not_insideFrom_succ (stage : Stage) (path : List Nat) (position : Nat)
    (below : List Nat) : ¬InsideFrom stage path (position + 1)
      (.leaf stage.pipeline stage.group (path ++ [position] ++ below)) := by
  rintro (⟨later, less, below', same⟩ | ⟨index, same⟩)
  · rw [Occurrence.leaf.injEq, List.append_assoc, List.append_assoc,
      List.append_right_inj] at same
    obtain ⟨rfl, -⟩ := List.cons.inj same.2.2
    omega
  · cases same

/-- The way in which an advance of branches ends. -/
structure BranchesSpec (s : Session World) (stage : Stage) (path : List Nat) (position : Nat)
    (rest : List Group) (st : RunState World)
    (p : Option (List Envelope) × RunState World) : Prop where
  advances : s.Advances stage (InsideFrom stage path position) st p.2
  result : p.1 = s.branchOutcomes? p.2.trace stage.pipeline stage.group path position rest
  waits : p.2.trace = st.trace → ∀ index branch, rest[index]? = some branch →
    s.AllWait stage p.2.trace (path ++ [position + index]) branch

/-- The way in which an advance of fallback branches ends. -/
structure FallbackSpec (s : Session World) (stage : Stage) (path : List Nat) (position : Nat)
    (errors : List String) (rest : List Group) (st : RunState World)
    (p : Option Envelope × RunState World) : Prop where
  advances : s.Advances stage (Inside stage path) st p.2
  result : p.1 =
    s.fallbackOutcome? p.2.trace stage.pipeline stage.group path position errors rest
  waits : p.2.trace = st.trace → ∀ index branch, rest[index]? = some branch →
    s.allFailed p.2.trace stage.pipeline stage.group path position (rest.take index) = true →
    s.AllWait stage p.2.trace (path ++ [position + index]) branch

theorem allFailed_concat {trace : Trace} {pipeline group : Nat} {path : List Nat}
    {position : Nat} {branches : List Group} {branch : Group} {result : Envelope}
    (failed : s.allFailed trace pipeline group path position branches = true)
    (found : s.outcome? trace pipeline group (path ++ [position + branches.length]) branch =
      some result) (failure : ¬result.success = true) :
    s.allFailed trace pipeline group path position (branches ++ [branch]) = true := by
  induction branches generalizing position with
  | nil =>
    rw [List.length_nil, Nat.add_zero] at found
    rw [List.nil_append, allFailed, found, allFailed]
    simpa using failure
  | cons first rest ih =>
    rw [allFailed, Bool.and_eq_true] at failed
    rw [List.cons_append, allFailed, Bool.and_eq_true]
    refine ⟨failed.1, ih failed.2 ?_⟩
    rw [List.length_cons] at found
    rw [← found]
    congr 3
    omega

mutual

/-- **A group is advanced by moves**, and what is returned is its envelope, if it has one then. -/
theorem advanceGroup_spec : ∀ (g : Group) (path : List Nat) (st : RunState World),
    s.Turn stage st.trace path g → s.GroupSpec stage path g st
      ((s.advanceGroup stage.pipeline stage.group path stage.previous g).run st)
  | .single step, path, st, turn => by
    have task : s.task? stage st.trace (.leaf stage.pipeline stage.group path) =
        some ⟨step, stage.previous, s.bindings.length⟩ := by
      have reached := turn st.trace (List.prefix_refl _) []
      rw [List.append_nil, reached?] at reached
      rw [task?, if_pos ⟨rfl, rfl⟩, reached]
      rfl
    have outside : ¬Below s.bindings.length (.leaf stage.pipeline stage.group path) := by
      rintro ⟨index, -, same⟩
      cases same
    have spec := advanceStep_spec _ _ step stage.previous outside st task
    rw [advanceGroup]
    refine ⟨spec.advances.mono fun site within => ?_, ?_, ?_⟩
    · rcases within with rfl | ⟨index, -, rfl⟩
      · exact .inl ⟨[], by rw [List.append_nil]⟩
      · exact .inr ⟨index, rfl⟩
    · rw [outcome?]
      exact spec.result
    · intro same below step' reached unended
      cases below with
      | cons => cases reached
      | nil =>
        rw [List.append_nil] at unended ⊢
        refine spec.waits same (spec.result.trans ?_)
        rw [unended]
        rfl
  | .parallel branches, path, st, turn => by
    have spec := advanceBranches_spec branches path 0 st fun position branch found => by
      rw [Nat.zero_add]
      exact turn.parallel found
    rw [advanceGroup, run_bind, run_pure]
    refine ⟨spec.advances.mono fun _ => InsideFrom.inside, ?_, ?_⟩
    · rw [outcome?]
      exact congrArg (Option.map _) spec.result
    · intro same below step reached unended
      cases below with
      | nil => cases reached
      | cons index below =>
        rw [reached?] at reached
        obtain ⟨branch, found, deeper⟩ := Option.bind_eq_some_iff.mp reached
        have waits := spec.waits same index branch found
        rw [Nat.zero_add] at waits
        have waits := waits below step deeper
        rw [List.append_assoc] at waits
        exact waits unended
  | .fallback branches, path, st, turn => by
    rw [advanceGroup]
    have spec := advanceFallback_spec branches [] [] path st turn rfl
    refine ⟨spec.advances, ?_, ?_⟩
    · rw [outcome?]
      exact spec.result
    · intro same below step reached unended
      cases below with
      | nil => cases reached
      | cons index below =>
        rw [reached?] at reached
        split at reached
        · next failed =>
          obtain ⟨branch, found, deeper⟩ := Option.bind_eq_some_iff.mp reached
          have waits := spec.waits same index branch found failed
          rw [List.length_nil, Nat.zero_add] at waits
          have waits := waits below step deeper
          rw [List.append_assoc] at waits
          exact waits unended
        · cases reached

/-- Branches that run side by side are advanced by moves. -/
theorem advanceBranches_spec : ∀ (rest : List Group) (path : List Nat) (position : Nat)
    (st : RunState World),
    (∀ index branch, rest[index]? = some branch →
      s.Turn stage st.trace (path ++ [position + index]) branch) →
    s.BranchesSpec stage path position rest st
      ((s.advanceBranches stage.pipeline stage.group path stage.previous position rest).run st)
  | [], path, position, st, turns => by
    rw [advanceBranches, run_pure]
    refine ⟨.refl st, ?_, fun _ _ _ found => by cases found⟩
    rw [branchOutcomes?]
  | branch :: rest, path, position, st, turns => by
    have first := advanceGroup_spec branch (path ++ [position]) st (turns 0 branch rfl)
    rw [advanceBranches, run_bind]
    generalize (s.advanceGroup stage.pipeline stage.group (path ++ [position]) stage.previous
      branch).run st = p at first ⊢
    obtain ⟨result, st1⟩ := p
    obtain ⟨advances, told, waits⟩ := first
    dsimp only at advances told waits
    have others := advanceBranches_spec rest path (position + 1) st1 fun index branch found => by
      rw [Nat.add_assoc, Nat.add_comm 1]
      exact (turns (index + 1) branch found).mono advances.trace_prefix
    rw [run_bind]
    generalize (s.advanceBranches stage.pipeline stage.group path stage.previous (position + 1)
      rest).run st1 = q at others ⊢
    obtain ⟨results, st2⟩ := q
    obtain ⟨advances', told', waits'⟩ := others
    dsimp only at advances' told' waits'
    rw [run_pure]
    refine ⟨(advances.mono fun _ => Inside.of_branch).trans
      (advances'.mono fun _ h => h.mono (Nat.le_succ _)), ?_, ?_⟩
    · have still : s.outcome? st2.trace stage.pipeline stage.group (path ++ [position]) branch =
          s.outcome? st1.trace stage.pipeline stage.group (path ++ [position]) branch :=
        outcome?_congr s _ branch fun below =>
          advances'.ending?_eq (not_insideFrom_succ stage path position below)
      dsimp only
      rw [branchOutcomes?, still]
      exact congrArg₂ (fun result results => match result, results with
        | some result, some results => some (result :: results)
        | _, _ => none) told told'
    · intro same index later found
      dsimp only at same ⊢
      have first := advances.moves.trace_eq_left advances'.moves same
      cases index with
      | zero =>
        cases found
        rw [same, ← first]
        exact waits first
      | succ index =>
        have waits := waits' (same.trans first.symm) index later found
        rw [Nat.add_assoc, Nat.add_comm 1] at waits
        exact waits

/-- Fallback branches are advanced by moves. -/
theorem advanceFallback_spec : ∀ (rest failed : List Group) (errors : List String)
    (path : List Nat) (st : RunState World),
    s.Turn stage st.trace path (.fallback (failed ++ rest)) →
    s.allFailed st.trace stage.pipeline stage.group path 0 failed = true →
    s.FallbackSpec stage path failed.length errors rest st
      ((s.advanceFallback stage.pipeline stage.group path stage.previous failed.length errors
        rest).run st)
  | [], failed, errors, path, st, turn, hfailed => by
    rw [advanceFallback, run_pure]
    refine ⟨.refl st, ?_, fun _ _ _ found => by cases found⟩
    rw [fallbackOutcome?]
  | branch :: rest, failed, errors, path, st, turn, hfailed => by
    have first := advanceGroup_spec branch (path ++ [failed.length]) st <| by
      refine turn.fallback (by simp) ?_
      rw [List.take_left']
      · exact hfailed
      · rfl
    rw [advanceFallback, run_bind]
    generalize (s.advanceGroup stage.pipeline stage.group (path ++ [failed.length])
      stage.previous branch).run st = p at first ⊢
    obtain ⟨result, st1⟩ := p
    obtain ⟨advances, told, waits⟩ := first
    dsimp only at advances told waits
    have within : s.Advances stage (Inside stage path) st st1 :=
      advances.mono fun _ h => h.of_branch.inside
    -- where the first branch has not failed, no later one has been reached
    have only {st' : RunState World} (same : st'.trace = st.trace) (eq : st'.trace = st1.trace)
        (notFailed : ∀ result', result = some result' → result'.success = true)
        (index : Nat) (later : Group) (found : (branch :: rest)[index]? = some later)
        (hfailed' : s.allFailed st'.trace stage.pipeline stage.group path failed.length
          ((branch :: rest).take index) = true) :
        s.AllWait stage st'.trace (path ++ [failed.length + index]) later := by
      cases index with
      | zero =>
        cases found
        rw [eq]
        exact waits (eq.symm.trans same)
      | succ index =>
        rw [List.take_succ_cons, allFailed, eq, ← told, Bool.and_eq_true] at hfailed'
        cases result with
        | none => cases hfailed'.1
        | some result =>
          have success := notFailed result rfl
          have failure : (!result.success) = true := hfailed'.1
          rw [success] at failure
          cases failure
    cases result with
    | none =>
      refine ⟨within, ?_, fun same => only same rfl fun _ h => by cases h⟩
      rw [run_pure, fallbackOutcome?, ← told]
    | some result =>
      dsimp only
      by_cases success : result.success = true
      · rw [if_pos success]
        refine ⟨within, ?_, fun same => only same rfl fun _ h => Option.some.inj h ▸ success⟩
        rw [run_pure, fallbackOutcome?, ← told]
        dsimp only
        rw [if_pos success]
      · rw [if_neg success]
        have grown := advances.trace_prefix
        have failed' : s.allFailed st1.trace stage.pipeline stage.group path 0
            (failed ++ [branch]) = true :=
          allFailed_concat (s.allFailed_mono grown _ _ path 0 _ hfailed)
            (by rw [Nat.zero_add]; exact told.symm) success
        have turn' : s.Turn stage st1.trace path (.fallback ((failed ++ [branch]) ++ rest)) := by
          rw [List.append_assoc]
          exact turn.mono grown
        have others := advanceFallback_spec rest (failed ++ [branch])
          (errors ++ [result.errorMessage]) path st1 turn' failed'
        rw [List.length_append, List.length_singleton] at others
        generalize (s.advanceFallback stage.pipeline stage.group path stage.previous
          (failed.length + 1) (errors ++ [result.errorMessage]) rest).run st1 = q at others ⊢
        obtain ⟨final, st2⟩ := q
        obtain ⟨advances', told', waits'⟩ := others
        dsimp only at advances' told' waits'
        refine ⟨within.trans advances', ?_, ?_⟩
        · have still := s.outcome?_mono advances'.trace_prefix stage.pipeline stage.group _
            branch told.symm
          dsimp only
          rw [fallbackOutcome?, still]
          dsimp only
          rw [if_neg success]
          exact told'
        · intro same index later found hfailed'
          dsimp only at same hfailed' ⊢
          have first := advances.moves.trace_eq_left advances'.moves same
          cases index with
          | zero =>
            cases found
            rw [same, ← first]
            exact waits first
          | succ index =>
            rw [List.take_succ_cons, allFailed, Bool.and_eq_true] at hfailed'
            have waits := waits' (same.trans first.symm) index later found hfailed'.2
            rw [Nat.add_assoc, Nat.add_comm 1] at waits
            exact waits

end

end Session

end CapabilityPipeline
