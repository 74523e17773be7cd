import CapabilityPipeline.Json.Decode
import CapabilityPipeline.Json.Encode

/-!
# Programs

A program assigns steps to names and runs pipelines. A pipeline is a sequence of groups, and a
group is a single step or several groups run side by side or as fallbacks of each other.

Results:

* `Step`, `Group`, `Pipeline`, `Binding`, `Program`: the parts of a program.
* `Group.steps`, `Program.steps`: the steps in source order.
* `Program.toValue`, `Program.ofTree?` and those of the parts: programs as JSON.
-/

namespace CapabilityPipeline

open Json (Tree Value)

/-! ## Parts -/

/-- One use of a capability: an action of a domain, on a target, with parameters. -/
structure Step where
  domain : String
  action : String
  target : Option String
  params : Json.Object
  deriving DecidableEq

/-- A step or a composition of groups. -/
inductive Group where
  | single (step : Step)
  /-- Branches that run side by side. -/
  | parallel (branches : List Group)
  /-- Branches that run in order until one succeeds. -/
  | fallback (branches : List Group)

/-- Groups that run one after another. -/
structure Pipeline where
  groups : List Group

/-- A name for the result of a step. -/
structure Binding where
  name : String
  step : Step
  deriving DecidableEq

/-- Bindings and pipelines, both in source order. -/
structure Program where
  bindings : List Binding
  pipelines : List Pipeline

namespace Step

/-- Model of `new`: a step without target and parameters. -/
def ofRoute (domain action : String) : Step :=
  ⟨domain, action, none, []⟩

/-- Model of `with_target`: the step with a target. -/
def withTarget (s : Step) (target : String) : Step :=
  { s with target := some target }

/-- Model of `with_param`: the step with one more parameter. -/
def withParam (s : Step) (name : String) (value : Value) : Step :=
  { s with params := s.params.insert name value }

/-- Model of `route_key`: domain and action with a colon between them. -/
def route (s : Step) : String :=
  s!"{s.domain}:{s.action}"

end Step

namespace Group

mutual

/-- Model of `steps`: the steps of a group in source order. -/
def steps : Group → List Step
  | single step => [step]
  | parallel branches => branchSteps branches
  | fallback branches => branchSteps branches

/-- The steps of branches in source order. -/
def branchSteps : List Group → List Step
  | [] => []
  | branch :: rest => steps branch ++ branchSteps rest

end

/-- Model of `kind`: the word for the kind of a group. -/
def kind : Group → String
  | single _ => "single"
  | parallel _ => "parallel"
  | fallback _ => "fallback"

/-- Model of `is_single`: the group is a step. -/
def isSingle : Group → Bool
  | single _ => true
  | _ => false

/-! ## Equality -/

mutual

/-- Equality of groups is decidable. -/
def decEq : (a b : Group) → Decidable (a = b)
  | single a, single b => if h : a = b then isTrue (h ▸ rfl) else isFalse (by simp [h])
  | parallel a, parallel b =>
    match decEqBranches a b with
    | isTrue h => isTrue (h ▸ rfl)
    | isFalse h => isFalse (by simp [h])
  | fallback a, fallback b =>
    match decEqBranches a b with
    | isTrue h => isTrue (h ▸ rfl)
    | isFalse h => isFalse (by simp [h])
  | single _, parallel _ | single _, fallback _ | parallel _, single _ | parallel _, fallback _
  | fallback _, single _ | fallback _, parallel _ => isFalse (by simp)

/-- Equality of lists of groups is decidable. -/
def decEqBranches : (a b : List Group) → Decidable (a = b)
  | [], [] => isTrue rfl
  | a :: as, b :: bs =>
    match decEq a b, decEqBranches as bs with
    | isTrue h, isTrue h' => isTrue (by rw [h, h'])
    | isFalse h, _ => isFalse (by simp [h])
    | _, isFalse h => isFalse (by simp [h])
  | [], _ :: _ | _ :: _, [] => isFalse (by simp)

end

instance : DecidableEq Group := decEq

end Group

deriving instance DecidableEq for Pipeline
deriving instance DecidableEq for Program

namespace Program

/-- Model of `binding`: the first binding of a name. -/
def binding? (p : Program) (name : String) : Option Binding :=
  p.bindings.find? fun b => b.name = name

/-- Model of `steps`: the steps of the pipelines in source order. -/
def steps (p : Program) : List Step :=
  p.pipelines.flatMap fun pipeline => pipeline.groups.flatMap Group.steps

end Program

/-! ## Writing -/

/-- A step as JSON. -/
def Step.toValue (s : Step) : Value :=
  .record [
    Json.always "domain" (.string s.domain),
    Json.always "action" (.string s.action),
    Json.whenSome "target" .string s.target,
    if s.params.isEmpty then none else Json.always "params" (.object s.params)]

mutual

/-- A group as JSON: an object with one member that names its kind. -/
def Group.toValue : Group → Value
  | .single step => .object [("single", step.toValue)]
  | .parallel branches => .object [("parallel", .array (Group.branchValues branches))]
  | .fallback branches => .object [("fallback", .array (Group.branchValues branches))]

/-- The branches of a group as JSON. -/
def Group.branchValues : List Group → List Value
  | [] => []
  | branch :: rest => branch.toValue :: Group.branchValues rest

end

/-- A pipeline as JSON. -/
def Pipeline.toValue (p : Pipeline) : Value :=
  .record [Json.always "groups" (.ofList Group.toValue p.groups)]

/-- A binding as JSON. -/
def Binding.toValue (b : Binding) : Value :=
  .record [Json.always "name" (.string b.name), Json.always "step" b.step.toValue]

/-- A program as JSON. -/
def Program.toValue (p : Program) : Value :=
  .record [
    Json.always "bindings" (.ofList Binding.toValue p.bindings),
    Json.always "pipelines" (.ofList Pipeline.toValue p.pipelines)]

/-! ## Reading -/

/-- The step that a tree describes. -/
def Step.ofTree? (tree : Tree) : Option Step := do
  let r ← tree.record? ["domain", "action", "target", "params"]
  return {
    domain := ← r.required "domain" Tree.string?
    action := ← r.required "action" Tree.string?
    target := ← r.optional "target" Tree.string?
    params := ← r.defaulted "params" Tree.object? [] }

mutual

/-- The group that a tree describes. -/
def Group.ofTree? : Tree → Option Group
  | .object [("single", tree)] => (Step.ofTree? tree).map .single
  | .object [("parallel", .array items)] => (Group.branchesOfTrees? items).map .parallel
  | .object [("fallback", .array items)] => (Group.branchesOfTrees? items).map .fallback
  | _ => none

/-- The groups that trees describe. -/
def Group.branchesOfTrees? : List Tree → Option (List Group)
  | [] => some []
  | tree :: rest => do
    let branch ← Group.ofTree? tree
    let others ← Group.branchesOfTrees? rest
    return branch :: others

end

/-- The pipeline that a tree describes. -/
def Pipeline.ofTree? (tree : Tree) : Option Pipeline := do
  let r ← tree.record? ["groups"]
  return { groups := ← r.required "groups" (Tree.list? Group.ofTree?) }

/-- The binding that a tree describes. -/
def Binding.ofTree? (tree : Tree) : Option Binding := do
  let r ← tree.record? ["name", "step"]
  return { name := ← r.required "name" Tree.string?, step := ← r.required "step" Step.ofTree? }

/-- The program that a tree describes. -/
def Program.ofTree? (tree : Tree) : Option Program := do
  let r ← tree.record? ["bindings", "pipelines"]
  return {
    bindings := ← r.required "bindings" (Tree.list? Binding.ofTree?)
    pipelines := ← r.required "pipelines" (Tree.list? Pipeline.ofTree?) }

end CapabilityPipeline
