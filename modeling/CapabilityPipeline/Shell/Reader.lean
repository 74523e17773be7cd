import CapabilityPipeline.Shell.Token

/-!
# Reading scripts

The words and signs of a script are put together to commands. A script is read line by line, so
the commands before a line that cannot be read are known.

Results:

* `readScript`: the commands of a script, and where and why reading stops early.
-/

namespace CapabilityPipeline.Shell

open Text (Octets)

/-- The tokens that have not been read, with their lines. -/
abbrev Tokens := List (Nat × Token)

/-- Where and why a script cannot be read. -/
structure Misreading where
  line : Nat
  fault : Fault
  deriving DecidableEq, Repr

/-- A command and the tokens after it. -/
abbrev CommandReading := Except Misreading (Command × Tokens)

/-! ## Words with a meaning -/

/-- Words that end a list of commands. -/
def closingWords : List String :=
  ["then", "do", "done", "fi", "else", "elif", "esac", "\x7d"]

/-- Words with a meaning at the start of a command. -/
def reservedWords : List String :=
  closingWords ++ ["if", "while", "until", "for", "case", "in", "!", "\x7b"]

/-- How a token is named in a complaint. -/
def Token.name : Token → String
  | .word w =>
    match w.plain? with
    | some plain => if reservedWords.contains plain then s!"\"{plain}\"" else "word"
    | none => "word"
  | .sign s => s.name
  | _ => "redirection"

/-- The complaint about the first token. -/
def unexpected {α : Type} (expected : Option String) : Tokens → Except Misreading α
  | (line, .broken fault) :: _ => .error ⟨line, fault⟩
  | (line, token) :: _ => .error ⟨line, .unexpected token.name expected⟩
  | [] => .error ⟨0, .unexpected Sign.scriptEnd.name expected⟩

/-- The first token is a word with a text. -/
def startsWith (text : String) : Tokens → Bool
  | (_, .word word) :: _ => word.plain? = some text
  | _ => false

/-- The tokens after a word with a text. -/
def expectWord (text : String) (tokens : Tokens) : Except Misreading Tokens :=
  if startsWith text tokens then .ok tokens.tail else unexpected (some s!"\"{text}\"") tokens

/-- The tokens after a sign. -/
def expectSign (sign : Sign) : Tokens → Except Misreading Tokens
  | (line, .sign other) :: rest =>
    if other = sign then .ok rest else unexpected (some sign.name) ((line, .sign other) :: rest)
  | tokens => unexpected (some sign.name) tokens

/-- The tokens without the line ends at the start. -/
def skipLineEnds (tokens : Tokens) : Tokens :=
  tokens.dropWhile fun (_, token) => token = .sign .lineEnd

/-- The tokens start with something that ends a list of commands. -/
def endsList : Tokens → Bool
  | (_, .word word) :: _ => word.plain?.any closingWords.contains
  | (_, .sign sign) :: _ => [Sign.branchEnd, .closeParenthesis, .scriptEnd].contains sign
  | _ => false

/-! ## Simple commands -/

/-- The name and the value of a word that is an assignment. -/
def assignment? (word : Word) : Option (String × Word) :=
  let plain : Piece → Option Char
    | .literal c false => some c
    | _ => none
  let name := nameAt (word.map fun piece => (plain piece).getD ' ')
  if name ≠ [] ∧ word[name.length]? = some (.literal '=' false) then
    some (String.ofList name, word.drop (name.length + 1))
  else none

/-- A simple command, given what has been read of it. -/
def readSimple (line : Nat) (assignments : List (String × Word)) (words : List Word)
    (redirections : List Redirection) : Tokens → CommandReading
  | (_, .redirection r) :: rest =>
    readSimple line assignments words (redirections ++ [r]) rest
  | (_, .word word) :: rest =>
    match assignment? word with
    | some assignment =>
      if words.isEmpty then readSimple line (assignments ++ [assignment]) [] redirections rest
      else readSimple line assignments (words ++ [word]) redirections rest
    | none => readSimple line assignments (words ++ [word]) redirections rest
  | tokens => .ok (.simple line assignments words redirections, tokens)

/-- A command with the redirections after it. -/
def withRedirections (line : Nat) (command : Command) (tokens : Tokens) : Command × Tokens :=
  let redirection? : Nat × Token → Option Redirection
    | (_, .redirection r) => some r
    | _ => none
  let found := tokens.takeWhile fun token => (redirection? token).isSome
  if found.isEmpty then (command, tokens)
  else (.redirected line command (found.filterMap redirection?), tokens.drop found.length)

/-- Words up to the first token that is none. -/
def readWords (tokens : Tokens) : List Word × Tokens :=
  let word? : Nat × Token → Option Word
    | (_, .word word) => some word
    | _ => none
  let found := tokens.takeWhile fun token => (word? token).isSome
  (found.filterMap word?, tokens.drop found.length)

/-- The patterns of a branch up to the closing parenthesis. -/
def readPatterns : Tokens → Except Misreading (List Word × Tokens)
  | (_, .word word) :: (_, .sign .closeParenthesis) :: rest => .ok ([word], rest)
  | (_, .word word) :: (_, .sign .bar) :: rest => do
    let (patterns, rest) ← readPatterns rest
    return (word :: patterns, rest)
  | (_, .word _) :: tokens => unexpected (some Sign.closeParenthesis.name) tokens
  | (line, .sign .scriptEnd) :: rest =>
    unexpected (some Sign.closeParenthesis.name) ((line, .sign .scriptEnd) :: rest)
  | tokens => unexpected none tokens

/-! ## Commands -/

/-- How far a list of commands goes. -/
inductive Extent where
  /-- To the end of the line. -/
  | line
  /-- To something that ends a list, after at least one command. -/
  | body
  /-- To something that ends a list. -/
  | optional
  deriving DecidableEq, Repr

mutual

/-- A list of commands. Where the script ends there is none. The number bounds how deep they are
nested and how many there are. -/
def readList : (bound : Nat) → Extent → Tokens → CommandReading
  | 0, _, tokens => unexpected none tokens
  | bound + 1, extent, tokens => do
    let tokens := if extent = .line then tokens else skipLineEnds tokens
    let atEnd := tokens.head?.any fun (_, token) => token = .sign .scriptEnd
    if atEnd ∨ extent = .optional ∧ endsList tokens then return (.nothing, tokens)
    let (command, tokens) ← readAndOr bound tokens
    let goOn (command : Command) (rest : Tokens) : CommandReading := do
      let next : Extent := if extent = .line then .line else .optional
      match extent, rest with
      | .line, (_, .sign .lineEnd) :: rest => return (command, rest)
      | .line, (_, .sign .scriptEnd) :: _ => return (command, rest)
      | _, _ =>
        let (others, rest) ← readList bound next rest
        return (.sequence command others, rest)
    match tokens with
    | (_, .sign .semicolon) :: rest => goOn command rest
    | (_, .sign .ampersand) :: rest => goOn (.background command) rest
    | (_, .sign .lineEnd) :: rest =>
      if extent = .line then return (command, rest) else goOn command rest
    | (_, .sign .scriptEnd) :: _ => return (command, tokens)
    | _ => if extent = .line then unexpected none tokens else return (command, tokens)

/-- Pipelines of which each runs if the one before succeeds or fails. -/
def readAndOr : (bound : Nat) → Tokens → CommandReading
  | 0, tokens => unexpected none tokens
  | bound + 1, tokens => do
    let (first, rest) ← readPipeline bound tokens
    readAndOrRest bound first rest

/-- What is joined to a command that has been read. -/
def readAndOrRest : (bound : Nat) → Command → Tokens → CommandReading
  | 0, first, tokens => .ok (first, tokens)
  | bound + 1, first, tokens => do
    match tokens with
    | (_, .sign .andAlso) :: rest =>
      let (second, rest) ← readPipeline bound (skipLineEnds rest)
      readAndOrRest bound (.both first second) rest
    | (_, .sign .orElse) :: rest =>
      let (second, rest) ← readPipeline bound (skipLineEnds rest)
      readAndOrRest bound (.either first second) rest
    | _ => return (first, tokens)

/-- A pipeline, which may be negated. -/
def readPipeline : (bound : Nat) → Tokens → CommandReading
  | 0, tokens => unexpected none tokens
  | bound + 1, tokens => do
    let negated := startsWith "!" tokens
    let (commands, rest) ← readStages bound (if negated then tokens.tail else tokens)
    let command : Command := match commands with
      | [command] => command
      | _ => .pipeline commands
    return (if negated then .negation command else command, rest)

/-- The commands of a pipeline. -/
def readStages : (bound : Nat) → Tokens → Except Misreading (List Command × Tokens)
  | 0, tokens => unexpected none tokens
  | bound + 1, tokens => do
    let (command, rest) ← readCommand bound tokens
    match rest with
    | (_, .sign .bar) :: rest =>
      let (others, rest) ← readStages bound (skipLineEnds rest)
      return (command :: others, rest)
    | _ => return ([command], rest)

/-- A single command. -/
def readCommand : (bound : Nat) → Tokens → CommandReading
  | 0, tokens => unexpected none tokens
  | bound + 1, tokens =>
    let compound (line : Nat) (reading : CommandReading) : CommandReading := do
      let (command, rest) ← reading
      return withRedirections line command rest
    match tokens with
    | (line, .sign .openParenthesis) :: rest => compound line do
      let (body, rest) ← readList bound .body rest
      return (.subshell body, ← expectSign .closeParenthesis rest)
    | (line, .redirection _) :: _ => readSimple line [] [] [] tokens
    | (line, .word word) :: rest =>
      match word.plain? with
      | some "if" => compound line (readConditional bound rest)
      | some "while" => compound line (readLoop bound true rest)
      | some "until" => compound line (readLoop bound false rest)
      | some "for" => compound line (readEach bound rest)
      | some "case" => compound line (readChoice bound rest)
      | some "\x7b" => compound line do
        let (body, rest) ← readList bound .body rest
        return (body, ← expectWord "\x7d" rest)
      | plain =>
        if plain.any ("!" :: "in" :: closingWords).contains then unexpected none tokens
        else if (assignment? word).isSome then readSimple line [] [] [] tokens
        else match rest with
          | (_, .sign .openParenthesis) :: rest => do
            let rest ← expectSign .closeParenthesis rest
            match plain with
            | some name =>
              if nameAt name.toList = name.toList then
                let (body, rest) ← readCommand bound (skipLineEnds rest)
                return (.definition name body, rest)
              else throw ⟨line, .badFunctionName⟩
            | none => throw ⟨line, .badFunctionName⟩
          | _ => readSimple line [] [] [] tokens
    | _ => unexpected none tokens

/-- A conditional after its first word. -/
def readConditional : (bound : Nat) → Tokens → CommandReading
  | 0, tokens => unexpected none tokens
  | bound + 1, tokens => do
    let (condition, rest) ← readList bound .body tokens
    let (yes, rest) ← readList bound .body (← expectWord "then" rest)
    if startsWith "elif" rest then
      let (no, rest) ← readConditional bound rest.tail
      return (.conditional condition yes no, rest)
    if startsWith "else" rest then
      let (no, rest) ← readList bound .body rest.tail
      return (.conditional condition yes no, ← expectWord "fi" rest)
    return (.conditional condition yes .nothing, ← expectWord "fi" rest)

/-- A loop with a condition after its first word. -/
def readLoop : (bound : Nat) → (whileSucceeds : Bool) → Tokens → CommandReading
  | 0, _, tokens => unexpected none tokens
  | bound + 1, whileSucceeds, tokens => do
    let (condition, rest) ← readList bound .body tokens
    let (body, rest) ← readList bound .body (← expectWord "do" rest)
    return (.loop whileSucceeds condition body, ← expectWord "done" rest)

/-- A loop over words after its first word. -/
def readEach : (bound : Nat) → Tokens → CommandReading
  | 0, tokens => unexpected none tokens
  | bound + 1, tokens => do
    match tokens with
    | (line, .word word) :: rest =>
      let name := word.plain?.getD ""
      if name = "" ∨ nameAt name.toList ≠ name.toList then throw ⟨line, .badLoopVariable⟩
      let rest := skipLineEnds rest
      let (words, rest) ←
        if startsWith "in" rest then
          match readWords rest.tail with
          | (words, (_, .sign .semicolon) :: rest) => pure (some words, rest)
          | (words, (_, .sign .lineEnd) :: rest) => pure (some words, rest)
          | (_, rest) => unexpected none rest
        else match rest with
          | (_, .sign .semicolon) :: rest => pure (none, rest)
          | _ => pure (none, rest)
      let (body, rest) ← readList bound .body (← expectWord "do" (skipLineEnds rest))
      return (.each name words body, ← expectWord "done" rest)
    | (line, _) :: _ => throw ⟨line, .badLoopVariable⟩
    | [] => unexpected none tokens

/-- A choice after its first word. -/
def readChoice : (bound : Nat) → Tokens → CommandReading
  | 0, tokens => unexpected none tokens
  | bound + 1, tokens => do
    match tokens with
    | (_, .word word) :: rest =>
      let rest ← expectWord "in" (skipLineEnds rest)
      let (branches, rest) ← readBranches bound rest
      return (.choice word branches, rest)
    | _ => unexpected (some "word") tokens

/-- The branches of a choice and the word that ends it. -/
def readBranches : (bound : Nat) → Tokens →
    Except Misreading (List (List Word × Command) × Tokens)
  | 0, tokens => unexpected none tokens
  | bound + 1, tokens => do
    let tokens := skipLineEnds tokens
    if startsWith "esac" tokens then return ([], tokens.tail)
    let tokens := match tokens with
      | (_, .sign .openParenthesis) :: rest => rest
      | _ => tokens
    let (patterns, rest) ← readPatterns tokens
    let (body, rest) ← readList bound .optional rest
    match rest with
    | (_, .sign .branchEnd) :: rest =>
      let (branches, rest) ← readBranches bound rest
      return ((patterns, body) :: branches, rest)
    | _ => return ([(patterns, body)], ← expectWord "esac" rest)

end

/-! ## Scripts -/

/-- The commands of lines, and where and why reading stops early. The number bounds the lines
and what is in them. -/
def readLines : (bound : Nat) → Tokens → List Command × Option Misreading
  | 0, _ => ([], none)
  | _, [] => ([], none)
  | _, (_, .sign .scriptEnd) :: _ => ([], none)
  | bound + 1, (_, .sign .lineEnd) :: rest => readLines bound rest
  | bound + 1, tokens =>
    match readList bound .line tokens with
    | .error misreading => ([], some misreading)
    | .ok (command, rest) =>
      let (commands, misreading) := readLines bound rest
      (command :: commands, misreading)

/-- The commands of a script, a line of the script each, and where and why reading stops
early. -/
def readScript (script : Octets) : List Command × Option Misreading :=
  let found := tokens script
  readLines (8 * found.length + 8) found

end CapabilityPipeline.Shell
