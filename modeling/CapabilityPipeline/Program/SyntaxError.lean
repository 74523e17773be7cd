import CapabilityPipeline.Json.Shape
import CapabilityPipeline.Source.Bracket

/-!
# What can be wrong with a program text

Each way for a text to be no program is a cause of its own, and an error adds the line of the
statement where it was found.

Results:

* `ParseError.message`: the wording of each cause.
* `SyntaxError.message`: the wording with the line.
-/

namespace CapabilityPipeline

open Source (Operator ScanError)

/-- Why a text is no program, statement or step. -/
inductive ParseError where
  | emptyProgram
  | alreadyAssigned (name : String)
  | invalidVariable (name : String)
  | nothingAssigned (name : String)
  | assignedComposition (name : String) (op : Operator)
  | unassigned (name : String)
  | scan (error : ScanError)
  /-- A part between sequence operators is empty, counted from one. -/
  | emptySegment (position : Nat)
  | mixedOperators (segment : String)
  | emptyBranch (op : Operator)
  | expectedStep (text : String)
  | unclosedTarget (route : String)
  | unclosedParams (route : String)
  | invalidTarget (text : String) (error : Json.DataError)
  | invalidParams (route : String) (fault : Json.Located)
  | paramsNotObject (route : String)
  | unexpectedText (route text : String)
  deriving DecidableEq

/-- Model of `preview`: a text cut after forty characters. -/
def excerpt (text : String) : String :=
  if text.toList.length ≤ 40 then text
  else String.ofList (text.toList.take 40 ++ ['.', '.', '.'])

/-- The wording of a cause. -/
def ParseError.message : ParseError → String
  | emptyProgram => "program is empty"
  | alreadyAssigned name => s!"variable '${name}' is already assigned"
  | invalidVariable name => s!"invalid variable name '${name}'"
  | nothingAssigned name => s!"assignment to '${name}' has no right-hand side"
  | assignedComposition name op =>
    s!"right-hand side of '${name}' must be a single step, found '{op.text}'"
  | unassigned name => s!"variable '${name}' is used before it is assigned"
  | scan error => error.message
  | emptySegment position => s!"empty segment {position} around '{Operator.sequence.text}'"
  | mixedOperators segment =>
    s!"cannot mix '{Operator.parallel.text}' and '{Operator.fallback.text}' in one segment: " ++
      s!"'{excerpt segment}'"
  | emptyBranch op => s!"empty branch around '{op.text}'"
  | expectedStep text => s!"expected '[domain:action]' at '{excerpt text}'"
  | unclosedTarget route => s!"unclosed '(' in target of [{route}]"
  | unclosedParams route => s!"unclosed '\x7b' in params of [{route}]"
  | invalidTarget text error => s!"invalid quoted target {text}: {error.message}"
  | invalidParams route fault => s!"invalid params of [{route}]: {fault.message}"
  | paramsNotObject route => s!"params of [{route}] must be an object"
  | unexpectedText route text => s!"unexpected text after [{route}]: '{excerpt text}'"

/-- A cause with the line of the statement, counted from one, when it is known. -/
structure SyntaxError where
  line : Option Nat
  cause : ParseError
  deriving DecidableEq

/-- The wording of an error. -/
def SyntaxError.message (e : SyntaxError) : String :=
  match e.line with
  | some line => s!"syntax error at line {line}: {e.cause.message}"
  | none => s!"syntax error: {e.cause.message}"

end CapabilityPipeline
