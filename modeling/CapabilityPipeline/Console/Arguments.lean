import CapabilityPipeline.Numbers.Word

/-!
# Command-line arguments

Arguments are flags, options with a value, and positional texts. An option takes its value from
behind an equals sign or from the next argument, which must not look like an option itself. Two
dashes alone make all arguments after them positional.

Results:

* `Arguments.read`: arguments sorted by what they are, under the rules of a grammar.
* `Arguments.readUpTo`: the same up to the first positional text, with the rest.
* `UsageError.message`: what can be wrong with them.
-/

namespace CapabilityPipeline.Console

/-- What the value of an option or a positional text may be. -/
inductive ValueKind where
  | text
  /-- A text that is not empty. -/
  | path
  /-- A number that a word of 64 bits holds. -/
  | count
  deriving DecidableEq, Repr

/-- A value is of a kind. -/
def ValueKind.admits (kind : ValueKind) (value : String) : Bool :=
  match kind with
  | text => true
  | path => value ≠ ""
  | count => (natOfDigits? wordLimit64 value.toList).isSome

/-- The flags and options that may be given, without their dashes, and the names of the
positional texts that must be, with the kinds of their values. -/
structure Grammar where
  flags : List String
  options : List (String × ValueKind)
  /-- Options that may be given more than once. -/
  repeatable : List String
  positionals : List (String × ValueKind)
  deriving DecidableEq, Repr

/-- Why arguments name nothing that can be done. -/
inductive UsageError where
  /-- What is wanted is to be told how the program is used. -/
  | helpWanted
  | unknownArgument (argument : String)
  | unexpectedValue (flag : String)
  | missingValue (option : String)
  | repeated (name : String)
  | invalidValue (name value : String)
  | missingArgument (name : String)
  | missingCommand
  | unknownCommand (name : String)
  deriving DecidableEq, Repr

/-- The wording of arguments that cannot be understood. -/
def UsageError.message : UsageError → String
  | helpWanted => "help is wanted"
  | unknownArgument argument => s!"unexpected argument '{argument}'"
  | unexpectedValue flag => s!"unexpected value for '--{flag}'"
  | missingValue option => s!"a value is required for '--{option}'"
  | repeated name => s!"the argument '--{name}' cannot be used multiple times"
  | invalidValue name value => s!"invalid value '{value}' for '{name}'"
  | missingArgument name => s!"the argument <{name}> is required"
  | missingCommand => "a command is required"
  | unknownCommand name => s!"unrecognized command '{name}'"

/-- Arguments sorted by what they are. -/
structure Arguments where
  flags : List String
  values : List (String × String)
  positionals : List String
  deriving DecidableEq, Repr

namespace Arguments

/-- No arguments. -/
def empty : Arguments := ⟨[], [], []⟩

/-- A flag has been given. -/
def has (a : Arguments) (flag : String) : Bool :=
  a.flags.contains flag

/-- The value of an option. -/
def value? (a : Arguments) (option : String) : Option String :=
  a.values.lookup option

/-- All values of an option, in order. -/
def allValues (a : Arguments) (option : String) : List String :=
  a.values.filterMap fun e => if e.1 = option then some e.2 else none

/-- The positional text at an index. -/
def positional (a : Arguments) (index : Nat) : String :=
  a.positionals.getD index ""

/-- The arguments with one more flag. -/
def addFlag (a : Arguments) (flag : String) : Except UsageError Arguments :=
  if a.has flag then .error (.repeated flag) else .ok { a with flags := a.flags ++ [flag] }

/-- The arguments with the value of one more option. -/
def addValue (a : Arguments) (g : Grammar) (option : String) (kind : ValueKind)
    (value : String) : Except UsageError Arguments :=
  if (a.value? option).isSome && !g.repeatable.contains option then .error (.repeated option)
  else if !kind.admits value then .error (.invalidValue option value)
  else .ok { a with values := a.values ++ [(option, value)] }

/-- The arguments with one more positional text, if there is a place for it. -/
def addPositional (a : Arguments) (g : Grammar) (text : String) : Except UsageError Arguments :=
  match g.positionals[a.positionals.length]? with
  | some (name, kind) =>
    if kind.admits text then .ok { a with positionals := a.positionals ++ [text] }
    else .error (.invalidValue name text)
  | none => .error (.unknownArgument text)

end Arguments

/-- An argument by its looks. -/
inductive Shape where
  /-- A positional text. -/
  | plain
  /-- Two dashes alone. -/
  | dashes
  /-- Two dashes and a name, possibly with an equals sign and a value. -/
  | long (name : String) (value : Option String)
  /-- A dash and more. -/
  | short
  deriving DecidableEq, Repr

/-- The looks of an argument. -/
def Shape.of (argument : String) : Shape :=
  match argument.toList with
  | ['-', '-'] => .dashes
  | '-' :: '-' :: cs =>
    let name := String.ofList (cs.takeWhile (· ≠ '='))
    match cs.dropWhile (· ≠ '=') with
    | _ :: value => .long name (some (String.ofList value))
    | [] => .long name none
  | '-' :: _ :: _ => .short
  | _ => .plain

namespace Arguments

/-- Adds an argument that has two dashes and a name. The next argument is at hand and is taken
where an option needs it, which the answer says. -/
def addLong (a : Arguments) (g : Grammar) (argument name : String) (value next : Option String) :
    Except UsageError (Arguments × Bool) :=
  if g.flags.contains name then
    match value with
    | some _ => .error (.unexpectedValue name)
    | none => (a.addFlag name).map (·, false)
  else match g.options.lookup name, value, next with
    | some kind, some value, _ => (a.addValue g name kind value).map (·, false)
    | some kind, none, some value =>
      if Shape.of value = .plain then (a.addValue g name kind value).map (·, true)
      else .error (.missingValue name)
    | some _, none, none => .error (.missingValue name)
    | none, _, _ =>
      if argument = "--help" then .error .helpWanted else .error (.unknownArgument argument)

/-- Sorts arguments after those that have been sorted. If a first positional text ends the
reading, it and what follows it is left over. -/
def readFrom (g : Grammar) (stop : Bool) (a : Arguments) :
    List String → Except UsageError (Arguments × List String)
  | [] => .ok (a, [])
  | argument :: rest =>
    match Shape.of argument with
    | .short =>
      if argument.toList.take 2 = ['-', 'h'] then .error .helpWanted
      else .error (.unknownArgument argument)
    | .dashes =>
      if stop then .error (.unknownArgument argument)
      else (rest.foldlM (fun (a : Arguments) text => a.addPositional g text) a).map (·, [])
    | .plain =>
      if stop then .ok (a, argument :: rest)
      else (a.addPositional g argument).bind fun a => readFrom g stop a rest
    | .long name value =>
      match a.addLong g argument name value rest.head? with
      | .error e => .error e
      | .ok (a, false) => readFrom g stop a rest
      | .ok (a, true) => readFrom g stop a rest.tail
termination_by rest => rest.length
decreasing_by all_goals simp; try omega

/-- The arguments, of which none may be left over or missing. -/
def read (g : Grammar) (arguments : List String) : Except UsageError Arguments := do
  let (a, _) ← readFrom g false empty arguments
  match g.positionals[a.positionals.length]? with
  | some (name, _) => throw (.missingArgument name)
  | none => return a

/-- The arguments up to the first positional text, and the rest. -/
def readUpTo (g : Grammar) (arguments : List String) :
    Except UsageError (Arguments × List String) :=
  readFrom g true empty arguments

end Arguments

end CapabilityPipeline.Console
