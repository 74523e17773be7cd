import CapabilityPipeline.Proofs.Execution.Move
import CapabilityPipeline.Proofs.Names.Lookup
import Mathlib.Data.List.Induction

/-!
# Eager evaluation

The reference for what a program means when drivers answer by a function of the request: all
bindings are evaluated first, once and in source order, each in the environment of those before
it. Then the groups run in the environment of all bindings, and only the previous payload is passed
on within a pipeline. Nothing depends on the order in which branches take turns, for branches
know nothing of each other.

Results:

* `Engine.AnswersBy`: drivers answer by a function of driver, action, target, parameters and
  context.
* `Engine.eagerResults`: the results of a program in eager evaluation.
* `Session.get?_environment`, `Session.get?_environment_eq_none`: what the environment holds.
-/

namespace CapabilityPipeline

open Json (Value)

/-! ## Answers -/

/-- The reply to a call, unless it comes too late. -/
def Served.inTime? (limit : Option Nat) (served : Served) : Option Reply :=
  match limit with
  | some ms => if served.reply = .unanswered ∨ ms < served.duration then none else some served.reply
  | none => some served.reply

/-- What a driver replies to a request. There is nothing where the reply comes too late. -/
abbrev Answers := DriverKey → Request → Option Reply

/-- The drivers of an engine answer by a function of the driver and the request, whatever the
world is like. -/
def Engine.AnswersBy {World : Type} (e : Engine World) (answers : Answers) : Prop :=
  ∀ key driver, e.drivers.get? key = some driver → ∀ request world,
    (driver.call request world).1.inTime? e.settings.timeoutMs = answers key request

/-- What the drivers of an engine answer in a world without a state. -/
def Engine.stateless (e : Engine Unit) : Answers := fun key request =>
  (e.drivers.get? key).bind fun driver => (driver.call request ()).1.inTime? e.settings.timeoutMs

theorem Engine.answersBy_stateless (e : Engine Unit) : e.AnswersBy e.stateless := by
  intro key driver found request world
  rw [stateless, found]
  rfl

/-- The envelope of a reply, or that of a step that waited in vain. -/
def Reply.envelopeInTime (route : String) (limit : Option Nat) : Option Reply → Envelope
  | some reply => reply.envelope route
  | none =>
    let ms := limit.getD 0
    .failed s!"{route} timed out after {ms} ms"

theorem Served.delivery_result (site : Occurrence) (route : String) (limit : Option Nat)
    (served : Served) : (served.delivery site route limit).result =
      Reply.envelopeInTime route limit (served.inTime? limit) := by
  cases limit with
  | none => rfl
  | some ms =>
    dsimp only [Served.delivery, Served.inTime?]
    split
    · rfl
    · rfl

namespace Session

variable {World : Type}

/-! ## Steps -/

/-- The payloads of the bindings that names stand for, or the envelope of a step that mentions
one that cannot be had. -/
def lookUp (environment : NameMap Envelope) :
    List String → NameMap Value → Except Envelope (NameMap Value)
  | [], found => .ok found
  | name :: rest, found =>
    match environment.get? name with
    | none => .error (.failed s!"variable '${name}' is not assigned before use")
    | some result =>
      if result.success then lookUp environment rest (found.insert name result.payload)
      else .error (.failed s!"variable '${name}' failed: {result.errorMessage}")

variable (s : Session World) (answers : Answers)

/-- The envelope of a resolved step. -/
def eagerDispatch (step : Step) : Envelope :=
  match s.route step with
  | .error error => .failed error.message
  | .ok (_, key, action) =>
    Reply.envelopeInTime step.route s.engine.settings.timeoutMs
      (answers key ⟨action, step.target, step.params, s.context⟩)

/-- The envelope of a step in an environment. -/
def eagerStep (environment : NameMap Envelope) (step : Step) (previous : Option Value) :
    Envelope :=
  match lookUp environment step.mentions.keys .empty with
  | .error result => result
  | .ok found =>
    s.eagerDispatch answers
      (Substitution.resolve ⟨found, previous⟩ step s.engine.settings.injectPrevious)

/-- The envelopes of bindings by name, each evaluated in the environment of those before it. -/
def environment (bindings : List Binding) : NameMap Envelope :=
  bindings.foldl (fun env b => env.insert b.name (s.eagerStep answers env b.step none)) .empty

/-! ## Groups -/

mutual

/-- The envelope of a group in an environment. -/
def eagerGroup (environment : NameMap Envelope) (previous : Option Value) : Group → Envelope
  | .single step => s.eagerStep answers environment step previous
  | .parallel branches =>
    aggregate s.engine.settings.parallel (eagerBranches environment previous branches)
  | .fallback branches => eagerFallback environment previous [] branches

/-- The envelopes of branches, each run by itself. -/
def eagerBranches (environment : NameMap Envelope) (previous : Option Value) :
    List Group → List Envelope
  | [] => []
  | branch :: rest =>
    eagerGroup environment previous branch :: eagerBranches environment previous rest

/-- The envelope of the first branch that succeeds. The messages are those of the branches
before. -/
def eagerFallback (environment : NameMap Envelope) (previous : Option Value) :
    (errors : List String) → List Group → Envelope
  | errors, [] => exhausted errors
  | errors, branch :: rest =>
    let result := eagerGroup environment previous branch
    if result.success then result
    else eagerFallback environment previous (errors ++ [result.errorMessage]) rest

end

/-- The envelope of a pipeline in an environment. Each group sees the payload of the one
before. -/
def eagerGroups (environment : NameMap Envelope) :
    (previous : Option Envelope) → List Group → Envelope
  | none, [] => .failed "pipeline has no groups"
  | some previous, [] => previous
  | previous, group :: rest =>
    let result := s.eagerGroup answers environment (previous.map Envelope.payload) group
    if !result.success && s.engine.settings.failure = .abort then result
    else eagerGroups environment (some result) rest

end Session

/-- The results of a program in eager evaluation. -/
def Engine.eagerResults {World : Type} (e : Engine World) (answers : Answers) (p : Program)
    (context : Context) (time : String) : List Envelope :=
  let session : Session World := ⟨e, p.bindings, context, time⟩
  let environment := session.environment answers p.bindings
  p.pipelines.map fun pipeline => session.eagerGroups answers environment none pipeline.groups

/-! ## Environments -/

namespace Session

variable {World : Type} {s : Session World} {answers : Answers}

theorem environment_concat (bindings : List Binding) (b : Binding) :
    s.environment answers (bindings ++ [b]) = (s.environment answers bindings).insert b.name
      (s.eagerStep answers (s.environment answers bindings) b.step none) := by
  rw [environment, List.foldl_append]
  rfl

/-- A name that no binding has is not in the environment. -/
theorem get?_environment_eq_none {bindings : List Binding} {name : String}
    (h : name ∉ bindings.map Binding.name) :
    (s.environment answers bindings).get? name = none := by
  induction bindings using List.reverseRecOn with
  | nil => rfl
  | append_singleton bindings b ih =>
    rw [List.map_append, List.mem_append, not_or] at h
    rw [environment_concat, NameMap.get?_insert, if_neg fun same => h.2 (by simp [same]), ih h.1]

/-- The environment holds each binding evaluated in the environment of those before it. -/
theorem get?_environment {bindings : List Binding} (distinct : (bindings.map Binding.name).Nodup)
    {index : Nat} {b : Binding} (found : bindings[index]? = some b) :
    (s.environment answers bindings).get? b.name =
      some (s.eagerStep answers (s.environment answers (bindings.take index)) b.step none) := by
  induction bindings using List.reverseRecOn with
  | nil => cases found
  | append_singleton bindings last ih =>
    rw [List.map_append] at distinct
    have parts := List.nodup_append.mp distinct
    rw [environment_concat, NameMap.get?_insert]
    rcases Nat.lt_or_ge index bindings.length with before | atEnd
    · rw [List.getElem?_append_left before] at found
      have here := List.mem_map_of_mem (f := Binding.name) (List.mem_of_getElem? found)
      have different : b.name ≠ last.name :=
        parts.2.2 _ here _ (List.mem_singleton_self _)
      rw [if_neg different, ih parts.1 found, List.take_append_of_le_length (Nat.le_of_lt before)]
    · rw [List.getElem?_append_right atEnd] at found
      obtain ⟨same, rfl⟩ : index - bindings.length = 0 ∧ last = b := by
        rw [List.getElem?_singleton] at found
        exact Option.ite_none_right_eq_some.mp found |>.imp id Option.some.inj
      have length : index = bindings.length := by omega
      rw [if_pos rfl, length, List.take_left]

end Session

end CapabilityPipeline
