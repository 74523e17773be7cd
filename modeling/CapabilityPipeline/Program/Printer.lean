import CapabilityPipeline.Json.Printer
import CapabilityPipeline.Program.Basic
import CapabilityPipeline.Source.Quote

/-!
# Canonical program text

Every program has one canonical text: bindings first, one line each, then one line for each
pipeline. A target is always quoted, parameters are compact JSON and left out when there are
none, and each operator stands between single spaces.

Results:

* `Program.render` and the same for each part: the canonical text.
-/

namespace CapabilityPipeline

open Json (Value)
open Source (Operator)

/-- Model of `join`: texts with a separator between them. -/
def joinWith (separator : List Char) : List (List Char) → List Char
  | [] => []
  | [text] => text
  | text :: rest => text ++ separator ++ joinWith separator rest

/-- An operator between single spaces. -/
def spaced (op : Operator) : List Char :=
  ' ' :: op.symbol ++ [' ']

/-- The canonical text of a step. -/
def Step.chars (s : Step) : List Char :=
  let target := match s.target with
    | some target => '(' :: Json.stringText target ++ [')']
    | none => []
  let params := if s.params.isEmpty then [] else ' ' :: (Value.object s.params).chars
  '[' :: s.domain.toList ++ ':' :: s.action.toList ++ [']'] ++ target ++ params

mutual

/-- The canonical text of a group. -/
def Group.chars : Group → List Char
  | .single step => step.chars
  | .parallel branches => joinWith (spaced .parallel) (Group.branchChars branches)
  | .fallback branches => joinWith (spaced .fallback) (Group.branchChars branches)

/-- The canonical texts of branches. -/
def Group.branchChars : List Group → List (List Char)
  | [] => []
  | branch :: rest => branch.chars :: Group.branchChars rest

end

/-- The canonical text of a pipeline. -/
def Pipeline.chars (p : Pipeline) : List Char :=
  joinWith (spaced .sequence) (p.groups.map Group.chars)

/-- The canonical text of a binding. -/
def Binding.chars (b : Binding) : List Char :=
  '$' :: b.name.toList ++ [' ', '=', ' '] ++ b.step.chars

/-- The canonical text of a program. -/
def Program.chars (p : Program) : List Char :=
  joinWith ['\n'] (p.bindings.map Binding.chars ++ p.pipelines.map Pipeline.chars)

/-- Model of `render_step`: the canonical text of a step. -/
def Step.render (s : Step) : String := String.ofList s.chars

/-- Model of `render_group`: the canonical text of a group. -/
def Group.render (g : Group) : String := String.ofList g.chars

/-- Model of `render_pipeline`: the canonical text of a pipeline. -/
def Pipeline.render (p : Pipeline) : String := String.ofList p.chars

/-- Model of `render_binding`: the canonical text of a binding. -/
def Binding.render (b : Binding) : String := String.ofList b.chars

/-- Model of `render_program`: the canonical text of a program. -/
def Program.render (p : Program) : String := String.ofList p.chars

end CapabilityPipeline
