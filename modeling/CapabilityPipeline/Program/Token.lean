import CapabilityPipeline.Program.Basic

/-!
# Variables and placeholders in texts

The target of a step and the strings in its parameters may mention variables, written with a
dollar sign before the name, and the previous result, written as a placeholder in double
braces. Everything else is ordinary text.

Results:

* `tokens`: a text as variables, placeholders and ordinary characters, from left to right.
* `Step.mentions`: the names that a step mentions.
* `Step.mentionsPrevious`: the step mentions the previous result.
-/

namespace CapabilityPipeline

open Json (Value)

/-! ## Names -/

/-- A letter or an underscore, of the ASCII characters. -/
def startsName (c : Char) : Bool :=
  ('a' ≤ c && c ≤ 'z') || ('A' ≤ c && c ≤ 'Z') || c = '_'

/-- A letter, a digit or an underscore, of the ASCII characters. -/
def continuesName (c : Char) : Bool :=
  startsName c || ('0' ≤ c && c ≤ '9')

/-- Model of `is_variable_name`: the characters form the name of a variable. -/
def isVariableName : List Char → Bool
  | [] => false
  | c :: rest => startsName c && rest.all continuesName

/-- The longest name at the front of a text, empty if there is none. -/
def nameAtFront : List Char → List Char
  | [] => []
  | c :: rest => if startsName c then c :: rest.takeWhile continuesName else []

/-! ## Tokens -/

/-- Model of `PREV_RESULT_PLACEHOLDER`: the placeholder for the previous result. -/
def previousPlaceholder : String :=
  "\x7b\x7b_prev_result\x7d\x7d"

/-- A part of a text. -/
inductive Token where
  | char (c : Char)
  | reference (name : String)
  /-- The placeholder for the previous result. -/
  | previous
  deriving DecidableEq, Repr

/-- The variable or placeholder at the front of a text, with its length. -/
def tokenAtFront (cs : List Char) : Option (Token × Nat) :=
  if previousPlaceholder.toList.isPrefixOf cs then
    some (.previous, previousPlaceholder.toList.length)
  else match cs with
    | '$' :: rest =>
      match nameAtFront rest with
      | [] => none
      | name => some (.reference (String.ofList name), name.length + 1)
    | _ => none

/-- The tokens of a text, of which some characters are still part of the token before. -/
def tokensFrom : Nat → List Char → List Token
  | _, [] => []
  | skip + 1, _ :: rest => tokensFrom skip rest
  | 0, c :: rest =>
    match tokenAtFront (c :: rest) with
    | some (token, length) => token :: tokensFrom (length - 1) rest
    | none => .char c :: tokensFrom 0 rest

/-- Model of `TOKEN`: the tokens of a text. -/
def tokens (text : String) : List Token :=
  tokensFrom 0 text.toList

/-- The name that a token mentions. -/
def Token.name? : Token → Option String
  | reference name => some name
  | _ => none

/-- Model of `collect_variables`: the names that a text mentions, from left to right. -/
def namesIn (text : String) : List String :=
  (tokens text).filterMap Token.name?

/-- The text mentions the previous result. -/
def mentionsPrevious (text : String) : Bool :=
  (tokens text).contains .previous

/-! ## Values and steps -/

namespace Json.Value

mutual

/-- The strings of a value that may hold tokens, in order. Names of members are not among
them. -/
def texts : Value → List String
  | .string s => [s]
  | .array items => itemTexts items
  | .object members => memberTexts members
  | _ => []

/-- The strings of items. -/
def itemTexts : List Value → List String
  | [] => []
  | item :: rest => texts item ++ itemTexts rest

/-- The strings of the values of members. -/
def memberTexts : List (String × Value) → List String
  | [] => []
  | (_, value) :: rest => texts value ++ memberTexts rest

end

/-- Model of `collect_value_variables`: the names that a value mentions. -/
def mentions (v : Value) : NameSet :=
  NameSet.ofNames (v.texts.flatMap namesIn)

end Json.Value

namespace Step

/-- The texts of a step that may hold tokens: its target and the strings of its parameters. -/
def texts (s : Step) : List String :=
  s.target.toList ++ Value.memberTexts s.params

/-- Model of `variables`: the names that a step mentions. -/
def mentions (s : Step) : NameSet :=
  NameSet.ofNames (s.texts.flatMap namesIn)

/-- Model of `mentions_prev_result`: the step mentions the previous result. -/
def mentionsPrevious (s : Step) : Bool :=
  s.texts.any CapabilityPipeline.mentionsPrevious

end Step

end CapabilityPipeline
