import CapabilityPipeline.Json.Decode
import CapabilityPipeline.Program.SyntaxError
import CapabilityPipeline.Program.Token
import CapabilityPipeline.Source.Statement

/-!
# Reading programs

A program text is stripped of comments and split into statements. A statement that starts with
a dollar sign and has an equals sign assigns a step to a name; any other is a pipeline. Every
variable must have been assigned by an earlier statement.

Results:

* `Step.parse`, `Group.parse`, `Pipeline.parse`: the parts of a statement.
* `Program.parse`: a whole program.
-/

namespace CapabilityPipeline

open Json (Value)
open Source (Operator)
open Text (Symbol trim trimStart)

/-! ## Steps -/

/-- Characters that a domain or an action may have after its first. -/
def continuesIdentifier (c : Char) : Bool :=
  continuesName c || c = '.' || c = '-'

/-- The characters form the name of a domain or an action. -/
def isIdentifier : List Char → Bool
  | [] => false
  | c :: rest => startsName c && rest.all continuesIdentifier

/-- The longest domain or action at the front of a text, and the rest. -/
def identifierAtFront : List Char → Option (List Char × List Char)
  | [] => none
  | c :: rest =>
    if startsName c then
      some (c :: rest.takeWhile continuesIdentifier, rest.dropWhile continuesIdentifier)
    else none

/-- The rest of a text after one character. -/
def expectChar (c : Char) : List Char → Option (List Char)
  | [] => none
  | d :: rest => if d = c then some rest else none

/-- Model of `STEP_HEADER`: domain and action in square brackets at the front of a text, and the
rest. Blanks may stand around both. -/
def headerAtFront (cs : List Char) : Option (String × String × List Char) := do
  let rest ← expectChar '[' cs
  let (domain, rest) ← identifierAtFront (trimStart rest)
  let rest ← expectChar ':' (trimStart rest)
  let (action, rest) ← identifierAtFront (trimStart rest)
  let rest ← expectChar ']' (trimStart rest)
  return (String.ofList domain, String.ofList action, rest)

/-- Part of `parse_target`: the text between single quotes, if that is all there is. -/
def singleQuoted? : List Char → Option (List Char)
  | '\'' :: rest => if rest.getLast? = some '\'' then some rest.dropLast else none
  | _ => none

/-- Model of `parse_target`: the target that the text in parentheses stands for. Double quotes hold
a JSON string, single quotes a text taken as it is, and any other text counts without the blanks
around it. -/
def parseTarget (inner : List Char) : Except ParseError (Option String) :=
  match trim inner with
  | [] => .ok none
  | '"' :: rest =>
    let text := '"' :: rest
    match Json.decode .string Json.Tree.string? (text.map .char) with
    | .ok target => .ok (some target)
    | .error e => .error (.invalidTarget (String.ofList text) e)
  | text =>
    match singleQuoted? text with
    | some target => .ok (some (String.ofList target))
    | none => .ok (some (String.ofList text))

/-- Model of `parse_params`: the parameters that a text in braces stands for. -/
def parseParams (route : String) (text : List Char) : Except ParseError Json.Object :=
  match Value.read (text.map .char) with
  | .ok (.object members) => .ok members
  | .ok _ => .error (.paramsNotObject route)
  | .error fault => .error (.invalidParams route fault)

/-- The text between the brackets at its ends. -/
def unbracket (cs : List Char) : List Char :=
  (cs.drop 1).dropLast

/-- Part of `parse_step`: the target in parentheses at the front of a text, and the rest. -/
def targetAtFront (route : String) (cs : List Char) :
    Except ParseError (Option String × List Char) :=
  match cs with
  | '(' :: _ =>
    match Source.splitClose cs with
    | none => .error (.unclosedTarget route)
    | some (bracketed, rest) => do
      let target ← parseTarget (unbracket bracketed)
      return (target, trimStart rest)
  | _ => .ok (none, cs)

/-- Part of `parse_step`: the parameters in braces at the front of a text, and the rest. -/
def paramsAtFront (route : String) (cs : List Char) :
    Except ParseError (Json.Object × List Char) :=
  match cs with
  | '\x7b' :: _ =>
    match Source.splitClose cs with
    | none => .error (.unclosedParams route)
    | some (bracketed, rest) => do
      let params ← parseParams route bracketed
      return (params, trimStart rest)
  | _ => .ok ([], cs)

/-- Model of `parse_step`: the step that a text describes. -/
def Step.parse (cs : List Char) : Except ParseError Step :=
  let text := trim cs
  match headerAtFront text with
  | none => .error (.expectedStep (String.ofList text))
  | some (domain, action, rest) => do
    let route := (Step.ofRoute domain action).route
    let (target, rest) ← targetAtFront route (trimStart rest)
    let (params, rest) ← paramsAtFront route rest
    if rest.isEmpty then return { domain, action, target, params }
    else throw (.unexpectedText route (String.ofList rest))

/-! ## Groups and pipelines -/

/-- Model of `parse_branches`: the steps between the occurrences of an operator. -/
def parseBranches (op : Operator) (segment : List Char) : Except ParseError (List Group) := do
  let branches ← (Source.splitTopLevel op segment).mapError .scan
  branches.mapM fun branch =>
    if branch.isEmpty then throw (.emptyBranch op)
    else (Step.parse branch).map .single

/-- Model of `parse_group`: the group that a text describes. -/
def Group.parse (segment : List Char) : Except ParseError Group := do
  let parallel ← (Source.occurs .parallel segment).mapError .scan
  let fallback ← (Source.occurs .fallback segment).mapError .scan
  match parallel, fallback with
  | true, true => throw (.mixedOperators (String.ofList segment))
  | true, false => return .parallel (← parseBranches .parallel segment)
  | false, true => return .fallback (← parseBranches .fallback segment)
  | false, false => return .single (← Step.parse segment)

/-- The loop of `parse_pipeline`: the groups of segments, of which the first has the given
position. -/
def parseSegments : (position : Nat) → List (List Char) → Except ParseError (List Group)
  | _, [] => .ok []
  | position, segment :: rest =>
    if segment.isEmpty then throw (.emptySegment position)
    else do
      let group ← Group.parse segment
      let groups ← parseSegments (position + 1) rest
      return group :: groups

/-- Model of `parse_pipeline`: the pipeline that a text describes. -/
def Pipeline.parse (cs : List Char) : Except ParseError Pipeline := do
  let segments ← (Source.splitTopLevel .sequence cs).mapError .scan
  return ⟨← parseSegments 1 segments⟩

/-! ## Statements and programs -/

/-- Model of `split_assignment`: the names before and after the first equals sign of an
assignment. -/
def splitAssignment (cs : List Char) : Except ParseError (Option (String × List Char)) :=
  match cs with
  | '$' :: rest =>
    match rest.dropWhile (· ≠ '=') with
    | [] => .ok none
    | _ :: after =>
      let name := trim (rest.takeWhile (· ≠ '='))
      let value := trim after
      if !isVariableName name then .error (.invalidVariable (String.ofList name))
      else if value.isEmpty then .error (.nothingAssigned (String.ofList name))
      else .ok (some (String.ofList name, value))
  | _ => .ok none

/-- Part of `parse_binding_rhs`: no operator occurs in an assigned value. -/
def checkSingle (name : String) (value : List Char) : List Operator → Except ParseError Unit
  | [] => .ok ()
  | op :: rest => do
    if ← (Source.occurs op value).mapError .scan then throw (.assignedComposition name op)
    else checkSingle name value rest

/-- Model of `check_references`: every variable of the step is among the known names. -/
def checkReferences (known : NameSet) (step : Step) : Except ParseError Unit :=
  match step.mentions.keys.find? fun name => !known.contains name with
  | some name => .error (.unassigned name)
  | none => .ok ()

/-- What a statement adds to a program. -/
inductive Item where
  | binding (b : Binding)
  | pipeline (p : Pipeline)

/-- The body of the loop of `parse`: the meaning of a statement after the given names have been
assigned. -/
def parseStatement (known : NameSet) (cs : List Char) : Except ParseError Item := do
  match ← splitAssignment cs with
  | some (name, value) =>
    if known.contains name then throw (.alreadyAssigned name)
    checkSingle name value Operator.all
    let step ← Step.parse value
    checkReferences known step
    return .binding ⟨name, step⟩
  | none =>
    let pipeline ← Pipeline.parse cs
    (pipeline.groups.flatMap Group.steps).forM (checkReferences known)
    return .pipeline pipeline

/-- The loop of `parse`: the program of statements after the given names have been assigned. -/
def parseStatements : (known : NameSet) → List Source.Statement → Except SyntaxError Program
  | _, [] => .ok ⟨[], []⟩
  | known, statement :: rest => do
    let item ← (parseStatement known statement.text).mapError fun cause =>
      { line := some statement.line, cause }
    match item with
    | .binding b =>
      let program ← parseStatements (known.add b.name) rest
      return { program with bindings := b :: program.bindings }
    | .pipeline p =>
      let program ← parseStatements known rest
      return { program with pipelines := p :: program.pipelines }

/-- Model of `parse`: the program that a text describes. -/
def Program.parse (code : String) : Except SyntaxError Program :=
  match Source.statements (Source.stripComments code.toList) with
  | [] => .error { line := none, cause := .emptyProgram }
  | statements => parseStatements .empty statements

end CapabilityPipeline
