import CapabilityPipeline.Json.Printer
import CapabilityPipeline.Program.Token

/-!
# Substitution

At run time each variable and each placeholder gives way to a value. A string that is one
token and nothing else becomes that value; inside a longer text the value appears as text. The
inserted text is not looked at again, and a variable without a value stays as it is written.

Results:

* `Substitution.inText`, `Substitution.inValue`: the replacement in texts and values.
* `Substitution.resolve`: a step with everything replaced and, if wanted, the previous result
  added as a parameter.
-/

namespace CapabilityPipeline

open Json (Value)

/-- Model of `value_text`: a value as part of a longer text. Null is no text at all. -/
def Json.Value.inlineText : Value → String
  | .string s => s
  | .null => ""
  | v => v.compact

/-- Model of `PREV_RESULT_PARAM`: the parameter that carries the previous result. -/
def previousParam : String := "_prev_result"

/-- Model of `Substitutions`: values of variables, and the previous result if there is one. -/
structure Substitution where
  assigned : NameMap Value
  previous : Option Value
  deriving DecidableEq

namespace Substitution

/-- The replacement in `substitute_text`: the text that a token gives way to. -/
def tokenText (s : Substitution) : Token → String
  | .char c => String.ofList [c]
  | .reference name =>
    match s.assigned.get? name with
    | some value => value.inlineText
    | none => String.ofList ('$' :: name.toList)
  | .previous => (s.previous.getD .null).inlineText

/-- Model of `substitute_text`: the text with its tokens replaced. -/
def inText (s : Substitution) (text : String) : String :=
  String.ofList ((tokens text).flatMap fun token => (s.tokenText token).toList)

/-- Model of `EXACT_VARIABLE`: the variable that a text consists of. -/
def wholeVariable? (text : String) : Option String :=
  match text.toList with
  | '$' :: name => if isVariableName name then some (String.ofList name) else none
  | _ => none

/-- Part of `substitute_value`: the value that a string becomes. -/
def inString (s : Substitution) (text : String) : Value :=
  if text = previousPlaceholder then s.previous.getD .null
  else match (wholeVariable? text).bind s.assigned.get? with
    | some value => value
    | none => .string (s.inText text)

mutual

/-- Model of `substitute_value`: the value with the strings in it replaced. -/
def inValue (s : Substitution) : Value → Value
  | .string text => s.inString text
  | .array items => .array (inItems s items)
  | .object members => .object (inMembers s members)
  | v => v

/-- The items with the strings in them replaced. -/
def inItems (s : Substitution) : List Value → List Value
  | [] => []
  | item :: rest => inValue s item :: inItems s rest

/-- The members with the strings in their values replaced. -/
def inMembers (s : Substitution) : List (String × Value) → List (String × Value)
  | [] => []
  | (name, value) :: rest => (name, inValue s value) :: inMembers s rest

end

/-- Model of `resolve_step`: the step with its tokens replaced. With `inject`, a step that does not
mention the previous result and has no parameter for it receives it as one. -/
def resolve (s : Substitution) (step : Step) (inject : Bool) : Step :=
  let params := s.inMembers step.params
  let withPrevious := match s.previous with
    | some previous =>
      if inject && !step.mentionsPrevious && !Json.Object.contains params previousParam then
        Json.Object.insert params previousParam previous
      else params
    | none => params
  { step with
    target := step.target.map fun target => (s.inString target).inlineText
    params := withPrevious }

end Substitution

end CapabilityPipeline
