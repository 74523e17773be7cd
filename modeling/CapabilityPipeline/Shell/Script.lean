import CapabilityPipeline.Text.Octets

/-!
# Shell scripts

A script is a sequence of commands. A simple command is a list of words with assignments before
them; words hold text, quoted or not, and expansions, whose results are put in their place when
the command runs. Commands are joined into pipelines, lists, conditions and loops, and each may
have redirections.

Results:

* `Word`: a word as the sequence of its pieces.
* `Command`: commands of all kinds.
-/

namespace CapabilityPipeline.Shell

open Text (Octets)

/-! ## Words -/

/-- What an expansion does with a variable or a parameter. -/
inductive Treatment where
  /-- Its value. -/
  | value
  /-- How many bytes its value has. -/
  | length
  /-- Its value, or a word if it is missing. -/
  | otherwise (emptyCounts : Bool) (word : Octets)
  /-- Its value, or a word that it is set to if it is missing. -/
  | assign (emptyCounts : Bool) (word : Octets)
  /-- Its value, or a complaint if it is missing. -/
  | require (emptyCounts : Bool) (word : Octets)
  /-- A word unless it is missing. -/
  | instead (emptyCounts : Bool) (word : Octets)
  /-- Its value without the shortest or longest part at the start that matches a pattern. -/
  | withoutStart (longest : Bool) (pattern : Octets)
  /-- Its value without the shortest or longest part at the end that matches a pattern. -/
  | withoutEnd (longest : Bool) (pattern : Octets)
  /-- No known treatment. -/
  | unknown
  deriving DecidableEq, Repr

/-- A piece of a word. Expansions within double quotes are quoted. -/
inductive Piece where
  | literal (c : Char) (quoted : Bool)
  /-- Quotes, which make a word even if nothing is between them. -/
  | quotes
  | parameter (name : String) (treatment : Treatment) (quoted : Bool)
  /-- The output of a script. -/
  | output (script : Octets) (quoted : Bool)
  /-- The value of an arithmetic expression. -/
  | arithmetic (expression : Octets) (quoted : Bool)
  deriving DecidableEq, Repr

/-- A word is the sequence of its pieces. -/
abbrev Word := List Piece

/-- The text of a word that has only text, none of it quoted. -/
def Word.plain? (word : Word) : Option String :=
  let plain? : Piece → Option Char
    | .literal c false => some c
    | _ => none
  (word.mapM plain?).map String.ofList

/-- The text of a word with quotes removed and nothing expanded. -/
def Word.text (word : Word) : Octets :=
  word.filterMap fun
    | .literal c _ => some c
    | _ => none

/-- A part of a word is quoted. -/
def Word.isQuoted (word : Word) : Bool :=
  word.any fun
    | .literal _ quoted => quoted
    | .quotes => true
    | _ => false

/-! ## Commands -/

/-- How a file is opened. -/
inductive Opening where
  | read
  /-- What is in the file is dropped first. -/
  | write
  | append
  | readWrite
  deriving DecidableEq, Repr

/-- Where a descriptor leads from a redirection on. -/
inductive Target where
  | file (opening : Opening) (path : Word)
  /-- Where another descriptor leads, or nowhere. -/
  | duplicate (word : Word)
  /-- A text that is read. -/
  | text (body : Word)
  deriving DecidableEq, Repr

/-- A descriptor and where it leads. -/
structure Redirection where
  descriptor : Nat
  target : Target
  deriving DecidableEq, Repr

/-- Commands of all kinds. -/
inductive Command where
  | nothing
  | simple (line : Nat) (assignments : List (String × Word)) (words : List Word)
      (redirections : List Redirection)
  /-- A command that is no simple one, with redirections. -/
  | redirected (line : Nat) (command : Command) (redirections : List Redirection)
  /-- A command in a shell of its own. -/
  | subshell (body : Command)
  /-- Commands of which each reads what the one before it writes. -/
  | pipeline (commands : List Command)
  | negation (command : Command)
  | both (first second : Command)
  | either (first second : Command)
  | sequence (first second : Command)
  | background (command : Command)
  | conditional (condition yes no : Command)
  /-- A loop that goes on as long as the condition succeeds, or as long as it fails. -/
  | loop (whileSucceeds : Bool) (condition body : Command)
  /-- A loop over words, or over the arguments. -/
  | each (name : String) (words : Option (List Word)) (body : Command)
  /-- The first branch with a pattern that matches a word. -/
  | choice (word : Word) (branches : List (List Word × Command))
  | definition (name : String) (body : Command)

instance : Inhabited Command := ⟨.nothing⟩

end CapabilityPipeline.Shell
