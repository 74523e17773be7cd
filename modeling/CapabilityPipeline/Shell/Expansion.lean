import CapabilityPipeline.Shell.Arithmetic
import CapabilityPipeline.Shell.Machine
import CapabilityPipeline.Shell.Pattern
import CapabilityPipeline.Shell.Token

/-!
# Expansion

When a command runs, the expansions of its words are replaced by what they stand for. Outside
quotes, the result is split into fields where separators stand, and a field that is a pattern is
replaced by the paths that fit it.

Results:

* `Expansion.fields`: the fields that words stand for.
* `Expansion.text`: the text that a word stands for where it is not split.
* `Expansion.pattern`: the pattern that a word stands for.
-/

namespace CapabilityPipeline.Shell

open Text (Octets)

/-- What the pieces of a word stand for. -/
inductive Shred where
  | glyph (glyph : Glyph)
  /-- There is a field here even if it is empty. -/
  | present
  /-- A field ends here. -/
  | fieldEnd
  deriving DecidableEq, Repr

namespace Expansion

/-! ## Parameters -/

/-- The number that stands for the process of a shell. Those of commands in the background are the
ones after it. -/
def processId : Nat := 1000

/-- The value of a parameter that has one value or none. -/
def parameter? (name : String) : Act (Option Octets) := do
  let s ← Act.shell
  match name with
  | "0" => return some s.name
  | "#" => return some (textOfInt s.arguments.length)
  | "?" => return some (textOfInt s.status)
  | "$" => return some (textOfInt processId)
  | "-" => return some ((if s.stopsOnFailure then ['e'] else []) ++
      (if s.keepsPatterns then ['f'] else []) ++ (if s.requiresVariables then ['u'] else []))
  | "!" =>
    let jobs := (← get).jobs.length
    return if jobs = 0 then none else some (textOfInt (processId + jobs))
  | _ =>
    if name.toList.all Char.isDigit then
      return s.arguments[ofDigits 10 name.toList - 1]?
    else return s.values.lookup name

/-- The characters that separate fields. -/
def separators : Act Octets := do
  return (← Act.lookup? "IFS").getD [' ', '\t', '\n']

/-- The shreds of a text. -/
def shreds (quoted : Bool) (text : Octets) : List Shred :=
  text.map fun c => .glyph ⟨c, quoted, !quoted⟩

/-- The shreds of texts that are fields of their own. -/
def fieldShreds (quoted : Bool) (texts : List Octets) : List Shred :=
  [Shred.fieldEnd].intercalate
    (texts.map fun text => (if quoted then [Shred.present] else []) ++ shreds quoted text)

/-- The characters of shreds, with blanks between fields. -/
def chars (found : List Shred) : Octets :=
  found.filterMap fun
    | .glyph g => some g.char
    | .present => none
    | .fieldEnd => some ' '

/-- A value without the part at its start or at its end that fits a pattern. -/
def withoutPart (value : Octets) (atStart longest : Bool) (pattern : Pattern) : Octets :=
  if atStart then value.drop ((pattern.start? longest value).getD 0)
  else value.take (value.length - (pattern.end? longest value).getD 0)

/-- The word of a treatment. Within double quotes it is quoted as well. -/
def wordOf (quoted : Bool) (text : Octets) : Act Word :=
  match if quoted then textWord text else wholeWord text with
  | .ok word => return word
  | .error fault => Act.fail (Octets.ofText fault.message)

/-! ## Pieces -/

/-- The shreds of a word. Scripts are run by the function. The number bounds how deep words are
nested. -/
def expand (run : Octets → Act Octets) : (bound : Nat) → Word → Act (List Shred)
  | 0, _ => return []
  | bound + 1, word => do
    let nested (quoted : Bool) (text : Octets) : Act (List Shred) := do
      expand run bound (← wordOf quoted text)
    let mut found := []
    for piece in word do
      match piece with
      | .literal c quoted => found := found ++ [.glyph ⟨c, quoted, false⟩]
      | .quotes => found := found ++ [.present]
      | .output script quoted =>
        let output := (← run script).reverse.dropWhile (· = '\n')
        found := found ++ shreds quoted (output.reverse.filter (· ≠ '\x00'))
      | .arithmetic text quoted =>
        let text := chars (← nested true text)
        let values := (← Act.shell).values
        match Arithmetic.ofText text >>= Arithmetic.value values with
        | .ok (n, values) =>
          Act.modifyShell fun s => { s with values }
          found := found ++ shreds quoted (textOfInt n.toInt)
        | .error fault => Act.fail (fault.message text)
      | .parameter name treatment quoted =>
        let arguments := (← Act.shell).arguments
        let isList := name = "@" || name = "*"
        let value ← if isList then
            pure (if arguments.isEmpty then none else some ([' '].intercalate arguments))
          else parameter? name
        let whole (value : Octets) : Act (List Shred) := do
          if name = "@" || (name = "*" && !quoted) then return fieldShreds quoted arguments
          let separator := (← separators).take 1
          return shreds quoted (if isList then separator.intercalate arguments else value)
        let missing (emptyCounts : Bool) : Bool := match value with
          | none => true
          | some value => emptyCounts && value.isEmpty
        let more ← match treatment with
          | .value =>
            match value with
            | some value => whole value
            | none =>
              if (← Act.shell).requiresVariables && !isList && name ≠ "!" then
                Act.fail (Octets.ofText s!"{name}: parameter not set")
              else pure []
          | .length => pure (shreds quoted (textOfInt (value.getD []).length))
          | .otherwise emptyCounts text =>
            if missing emptyCounts then nested quoted text else whole (value.getD [])
          | .assign emptyCounts text =>
            if missing emptyCounts then
              let text := chars (← nested quoted text)
              Act.assign name (some text)
              pure (shreds quoted text)
            else whole (value.getD [])
          | .require emptyCounts text =>
            if missing emptyCounts then
              let said := chars (← nested quoted text)
              let tail := if emptyCounts then " or null" else ""
              let said := if text.isEmpty then Octets.ofText s!"parameter not set{tail}" else said
              Act.fail (Octets.ofText s!"{name}: " ++ said)
            else whole (value.getD [])
          | .instead emptyCounts text =>
            if missing emptyCounts then pure [] else nested quoted text
          | .withoutStart longest text | .withoutEnd longest text =>
            let pattern := (← nested false text).filterMap fun
              | .glyph g => some g
              | _ => none
            let atStart := match treatment with
              | .withoutStart _ _ => true
              | _ => false
            pure (shreds quoted (withoutPart (value.getD []) atStart longest pattern))
          | .unknown => Act.fail (Octets.ofText Fault.badSubstitution.message)
        found := found ++ more
    return found

/-- How deep words may be nested. -/
def maxDepth : Nat := 100

/-- The text that a word stands for where it is not split. -/
def text (run : Octets → Act Octets) (word : Word) : Act Octets := do
  return chars (← expand run maxDepth word)

/-- The pattern that a word stands for. -/
def pattern (run : Octets → Act Octets) (word : Word) : Act Pattern := do
  return (← expand run maxDepth word).filterMap fun
    | .glyph g => some g
    | _ => none

/-! ## Fields -/

/-- The fields of shreds, given the one that has begun, if any has, and whether a blank has ended
the one before. A separator that is no blank ends a field even if the field is empty, but not a
second time one that a blank has ended. -/
def split (separators : Octets) : Option (List Glyph) → (afterBlank : Bool) → List Shred →
    List (List Glyph)
  | field, _, [] => field.toList
  | field, _, .present :: rest => split separators (some (field.getD [])) false rest
  | field, _, .fieldEnd :: rest => field.toList ++ split separators none false rest
  | field, afterBlank, .glyph g :: rest =>
    if !(g.splits && separators.contains g.char) then
      split separators (some (field.getD [] ++ [g])) false rest
    else if isSpace g.char then
      field.toList ++ split separators none (field.isSome || afterBlank) rest
    else if field.isNone && afterBlank then split separators none false rest
    else field.getD [] :: split separators none false rest

/-- The names in a directory, in order. -/
def namesIn (files : FileTree) (path : String) : List Octets :=
  match files.locate path with
  | .ok place =>
    let names := files.entries.filterMap fun (other, _) =>
      if place.isPrefixOf other ∧ other.length = place.length + 1 then
        other.getLast?.map Octets.ofText
      else none
    names.mergeSort fun a b => !decide (b < a)
  | .error _ => []

/-- The pieces of a pattern between slashes. -/
def components : Pattern → List Pattern
  | [] => [[]]
  | g :: rest =>
    match components rest with
    | first :: others => if g.char = '/' then [] :: first :: others else (g :: first) :: others
    | [] => [[g]]

/-- The paths that fit pieces of a pattern, after a path that ends with a slash or is empty. -/
def pathsFrom (files : FileTree) (base : String) : (before : Octets) → List Pattern → List Octets
  | before, [] => [before]
  | before, piece :: rest =>
    let slash := if rest.isEmpty then [] else ['/']
    let directory :=
      if before.isEmpty then (if base = "" then "." else base)
      else Path.join base (Octets.text before)
    if piece.isProper then
      let shown := (namesIn files directory).filter fun name =>
        piece.fits name && (name.head? ≠ some '.' || piece.head?.any fun g => g.char = '.')
      shown.flatMap fun name => pathsFrom files base (before ++ name ++ slash) rest
    else
      let path := before ++ piece.map Glyph.char ++ slash
      if rest.isEmpty ∧ !files.pathExists (Path.join base (Octets.text path)) then []
      else pathsFrom files base path rest

/-- The fields that words stand for. A field that is a pattern stands for the paths that fit it,
if there are any. -/
def fields (run : Octets → Act Octets) (words : List Word) : Act (List Octets) := do
  let mut found := []
  for word in words do
    let expanded ← expand run maxDepth word
    let machine ← get
    let isAllArguments := match word with
      | [.quotes, .parameter "@" .value true] => true
      | _ => false
    if !(isAllArguments && machine.shell.arguments.isEmpty) then
      for field in split (← separators) none false expanded do
        let plain := field.map Glyph.char
        let paths := if Pattern.isProper field && !machine.shell.keepsPatterns then
            pathsFrom machine.files machine.shell.directory [] (components field)
          else []
        found := found ++ (if paths.isEmpty then [plain] else paths)
  return found

end Expansion

end CapabilityPipeline.Shell
