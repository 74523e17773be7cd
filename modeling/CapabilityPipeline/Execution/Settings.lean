import CapabilityPipeline.Json.Decode
import CapabilityPipeline.Json.Encode
import CapabilityPipeline.Numbers.Word
import CapabilityPipeline.Text.Blank

/-!
# Settings of an engine

Settings say what a failed group means for its pipeline, when a parallel group succeeds, how
long a call may take, and whether results are passed on unasked. They come from a JSON text,
in which anything may be left out, and from environment variables.

Results:

* `Settings.default`, `Settings.ofTree?`: the defaults and the reading of a text.
* `Settings.override`: environment variables applied in order, up to the first bad value.
-/

namespace CapabilityPipeline

open Json (Tree Value)

/-- What a failed group means for its pipeline. -/
inductive FailurePolicy where
  /-- The pipeline ends with it. -/
  | abort
  /-- The next group runs all the same. -/
  | carryOn
  deriving DecidableEq, Repr

/-- Model of `ParallelSuccessPolicy`: when a parallel group succeeds. -/
inductive ParallelPolicy where
  /-- With at least one branch. -/
  | any
  /-- With every branch. -/
  | all
  deriving DecidableEq, Repr

/-- Model of `is_success`: a group with so many successful branches succeeds. -/
def ParallelPolicy.isSuccess : ParallelPolicy → (succeeded total : Nat) → Bool
  | any, succeeded, _ => 0 < succeeded
  | all, succeeded, total => succeeded = total

/-- Model of `EngineConfig`: settings of an engine. -/
structure Settings where
  failure : FailurePolicy
  parallel : ParallelPolicy
  /-- How long a call may take, in milliseconds. Without it a call may take forever. -/
  timeoutMs : Option Nat
  /-- Results are passed to steps that do not mention them. -/
  injectPrevious : Bool
  deriving DecidableEq, Repr

/-- A setting whose value means nothing. -/
structure InvalidSetting where
  key : String
  value : String
  deriving DecidableEq, Repr

/-- The wording of a bad value. -/
def InvalidSetting.message (e : InvalidSetting) : String :=
  s!"invalid value '{e.value}' for {e.key}"

namespace Settings

/-- Model of `default`: a failed group ends its pipeline, one branch is enough, a call may take a
minute, and results are passed on. -/
def default : Settings :=
  ⟨.abort, .any, some 60000, true⟩

/-- Model of `driver_timeout`: the timeout in whole seconds. -/
def timeoutSecs (s : Settings) : Option Nat :=
  s.timeoutMs.map (· / 1000)

/-- Model of `with_driver_timeout`: the settings with a timeout in seconds, cut to 64 bits of
milliseconds. -/
def withTimeoutSecs (s : Settings) (seconds : Option Nat) : Settings :=
  { s with timeoutMs := seconds.map fun n => min (n * 1000) (wordLimit64 - 1) }

end Settings

/-! ## Words -/

/-- Words for what a failed group means. -/
def FailurePolicy.words : List (String × FailurePolicy) :=
  [("abort", .abort), ("continue", .carryOn)]

/-- Words for when a parallel group succeeds. -/
def ParallelPolicy.words : List (String × ParallelPolicy) :=
  [("any", .any), ("all", .all)]

/-- The word for what a failed group means. -/
def FailurePolicy.word : FailurePolicy → String
  | abort => "abort"
  | carryOn => "continue"

/-- The word for when a parallel group succeeds. -/
def ParallelPolicy.word : ParallelPolicy → String
  | any => "any"
  | all => "all"

/-- A text with its ASCII capitals made small. -/
def asciiLower (text : String) : String :=
  String.ofList (text.toList.map fun c =>
    if 'A' ≤ c ∧ c ≤ 'Z' then Char.ofNat (c.toNat + 32) else c)

/-- Model of `from_str`: the policy that a text names, whatever its case and the blanks around
it. -/
def FailurePolicy.ofText (text : String) : Except InvalidSetting FailurePolicy :=
  match words.lookup (asciiLower (Text.trimmed text)) with
  | some policy => .ok policy
  | none => .error ⟨"failure_policy", text⟩

/-- Model of `from_str`: the policy that a text names, whatever its case and the blanks around
it. -/
def ParallelPolicy.ofText (text : String) : Except InvalidSetting ParallelPolicy :=
  match words.lookup (asciiLower (Text.trimmed text)) with
  | some policy => .ok policy
  | none => .error ⟨"parallel_success", text⟩

/-! ## Environment -/

namespace Settings

/-- Model of `ENV_FAILURE_POLICY`: environment variable for what a failed group means. -/
def failureVariable : String := "IBL_FAILURE_POLICY"

/-- Model of `ENV_PARALLEL_SUCCESS`: environment variable for when a parallel group succeeds. -/
def parallelVariable : String := "IBL_PARALLEL_SUCCESS"

/-- Model of `ENV_DRIVER_TIMEOUT_MS`: environment variable for how long a call may take. -/
def timeoutVariable : String := "IBL_DRIVER_TIMEOUT_MS"

/-- Part of `apply_overrides`: the timeout that a text names. Zero means none. -/
def timeoutOfText (text : String) : Except InvalidSetting (Option Nat) :=
  match natOfDigits? wordLimit64 (Text.trim text.toList) with
  | some n => .ok (if n = 0 then none else some n)
  | none => .error ⟨timeoutVariable, text⟩

/-- Model of `apply_overrides`: the settings with environment variables applied in order, and the
first bad value if there is one. Variables after it are not applied. -/
def override (s : Settings) (lookup : String → Option String) :
    Settings × Option InvalidSetting :=
  let apply {α : Type} (name : String) (read : String → Except InvalidSetting α)
      (set : Settings → α → Settings) (state : Settings × Option InvalidSetting) :
      Settings × Option InvalidSetting :=
    match state, lookup name with
    | (s, none), some text =>
      match read text with
      | .ok a => (set s a, none)
      | .error e => (s, some e)
    | state, _ => state
  (s, none)
    |> apply failureVariable FailurePolicy.ofText (fun s policy => { s with failure := policy })
    |> apply parallelVariable ParallelPolicy.ofText (fun s policy => { s with parallel := policy })
    |> apply timeoutVariable timeoutOfText (fun s timeout => { s with timeoutMs := timeout })

/-- Settings as JSON. -/
def toValue (s : Settings) : Value :=
  .object [
    ("failure_policy", .string s.failure.word),
    ("parallel_success", .string s.parallel.word),
    ("driver_timeout_ms", .ofOption .ofNat s.timeoutMs),
    ("inject_prev_result", .bool s.injectPrevious)]

/-- The shape of settings. -/
def shape : Json.Shape :=
  .record "EngineConfig" [
    ("failure_policy", .word (FailurePolicy.words.map Prod.fst)),
    ("parallel_success", .word (ParallelPolicy.words.map Prod.fst)),
    ("driver_timeout_ms", .optional .natural),
    ("inject_prev_result", .boolean)]

/-- The settings that a tree describes. What it leaves out has its default. -/
def ofTree? (tree : Tree) : Option Settings := do
  let r ← tree.record? ["failure_policy", "parallel_success", "driver_timeout_ms",
    "inject_prev_result"]
  return {
    failure := ← r.defaulted "failure_policy" (Tree.word? FailurePolicy.words) default.failure
    parallel := ← r.defaulted "parallel_success" (Tree.word? ParallelPolicy.words)
      default.parallel
    timeoutMs := ← r.defaulted "driver_timeout_ms" (Tree.option? (Tree.nat? wordLimit64))
      default.timeoutMs
    injectPrevious := ← r.defaulted "inject_prev_result" Tree.bool? default.injectPrevious }

end Settings

end CapabilityPipeline
