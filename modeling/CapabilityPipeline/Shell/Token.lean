import CapabilityPipeline.Shell.Script

/-!
# Words and signs

A script is read as words, signs and redirections, each with the line on which it ends. Blanks
separate words; a backslash before the end of a line joins it to the next one; from the mark `#`
on, the rest of a line is a comment if the mark starts a word. The text of a redirection that
carries it stands on the lines after the one of the redirection.

Results:

* `tokens`: the words, signs and redirections of a script.
* `wordFrom`: the pieces of a word or of a text.
-/

namespace CapabilityPipeline.Shell

open Text (Octets)

/-! ## Names and spans -/

/-- A character that a name may start with. -/
def startsName (c : Char) : Bool :=
  c = '_' || c.isAlpha

/-- A character that a name may have after the first one. -/
def continuesName (c : Char) : Bool :=
  startsName c || c.isDigit

/-- The name at the start of a text, which is empty if there is none. -/
def nameAt (cs : Octets) : Octets :=
  if cs.head?.any startsName then cs.takeWhile continuesName else []

/-- Where in a script a character stands. -/
inductive Region where
  | open
  | singleQuoted
  | doubleQuoted
  /-- In a text with expansions in which quotes mean nothing. -/
  | text
  deriving DecidableEq, Repr

/-- What is before the bracket that closes a span, and what is after it. -/
def span (opening closing : Char) :
    (depth : Nat) → Region → Octets → Option (Octets × Octets)
  | _, _, [] => none
  | depth, .singleQuoted, c :: rest =>
    (span opening closing depth (if c = '\'' then .open else .singleQuoted) rest).map
      fun (inside, after) => (c :: inside, after)
  | depth, region, '\\' :: c :: rest =>
    (span opening closing depth region rest).map
      fun (inside, after) => ('\\' :: c :: inside, after)
  | depth, region, c :: rest =>
    if region ≠ .doubleQuoted ∧ c = closing ∧ depth = 0 then some ([], rest)
    else
      let region' : Region :=
        if c = '"' then if region = .doubleQuoted then .open else .doubleQuoted
        else if c = '\'' ∧ region = .open then .singleQuoted
        else region
      let depth' :=
        if region = .doubleQuoted then depth
        else if c = closing then depth - 1
        else if c = opening then depth + 1
        else depth
      (span opening closing depth' region' rest).map fun (inside, after) => (c :: inside, after)

/-- What is between backquotes, and what is after them. A backslash before a dollar sign, a
backquote or a backslash is dropped. -/
def backquoted : Octets → Option (Octets × Octets)
  | [] => none
  | '`' :: rest => some ([], rest)
  | '\\' :: c :: rest =>
    let kept := if ['$', '`', '\\'].contains c then [c] else ['\\', c]
    (backquoted rest).map fun (inside, after) => (kept ++ inside, after)
  | c :: rest => (backquoted rest).map fun (inside, after) => (c :: inside, after)

/-! ## Signs and faults -/

/-- A sign between commands. -/
inductive Sign where
  | lineEnd
  | semicolon
  | ampersand
  | bar
  | andAlso
  | orElse
  | openParenthesis
  | closeParenthesis
  | branchEnd
  | scriptEnd
  deriving DecidableEq, Repr

/-- How a sign is named in a complaint. -/
def Sign.name : Sign → String
  | lineEnd => "newline"
  | semicolon => "\";\""
  | ampersand => "\"&\""
  | bar => "\"|\""
  | andAlso => "\"&&\""
  | orElse => "\"||\""
  | openParenthesis => "\"(\""
  | closeParenthesis => "\")\""
  | branchEnd => "\";;\""
  | scriptEnd => "end of file"

/-- Why a script cannot be read. -/
inductive Fault where
  | openQuote
  | openBackquote
  | openBrace
  /-- Something other than what may follow, and what should follow if it is known. -/
  | unexpected (found : String) (expected : Option String)
  | badLoopVariable
  | badFunctionName
  | badDescriptor
  | badSubstitution
  deriving DecidableEq, Repr

/-- The wording of a fault. -/
def Fault.message : Fault → String
  | openQuote => "Syntax error: Unterminated quoted string"
  | openBackquote => "Syntax error: EOF in backquote substitution"
  | openBrace => "Syntax error: Missing '\x7d'"
  | unexpected found none => s!"Syntax error: {found} unexpected"
  | unexpected found (some expected) => s!"Syntax error: {found} unexpected (expecting {expected})"
  | badLoopVariable => "Syntax error: Bad for loop variable"
  | badFunctionName => "Syntax error: Bad function name"
  | badDescriptor => "Syntax error: Bad fd number"
  | badSubstitution => "Bad substitution"

/-! ## Expansions -/

/-- The treatment that follows the name of a parameter. -/
def treatmentOf : Octets → Treatment
  | [] => .value
  | ':' :: '-' :: word => .otherwise true word
  | ':' :: '=' :: word => .assign true word
  | ':' :: '?' :: word => .require true word
  | ':' :: '+' :: word => .instead true word
  | '-' :: word => .otherwise false word
  | '=' :: word => .assign false word
  | '?' :: word => .require false word
  | '+' :: word => .instead false word
  | '#' :: '#' :: pattern => .withoutStart true pattern
  | '#' :: pattern => .withoutStart false pattern
  | '%' :: '%' :: pattern => .withoutEnd true pattern
  | '%' :: pattern => .withoutEnd false pattern
  | _ => .unknown

/-- A character that is the name of a parameter. -/
def isParameterSign (c : Char) : Bool :=
  ['@', '*', '#', '?', '$', '!', '-'].contains c

/-- The parameter at the start of a text: a name, a number or a sign. -/
def parameterAt (cs : Octets) : Octets :=
  match nameAt cs, cs with
  | [], c :: _ =>
    if c.isDigit then cs.takeWhile Char.isDigit else if isParameterSign c then [c] else []
  | name, _ => name

/-- The expansion between braces. -/
def bracedPiece (quoted : Bool) (inside : Octets) : Piece :=
  let name := parameterAt inside
  let counted := parameterAt inside.tail
  if inside.head? = some '#' ∧ counted ≠ [] ∧ counted = inside.tail then
    .parameter (String.ofList counted) .length quoted
  else if name = [] then .parameter "" .unknown quoted
  else .parameter (String.ofList name) (treatmentOf (inside.drop name.length)) quoted

/-- The expansion between parentheses: that of an expression if there are two pairs. -/
def parenthesizedPiece (quoted : Bool) (inside : Octets) : Piece :=
  match inside with
  | '(' :: rest =>
    match span '(' ')' 0 .open rest with
    | some (expression, []) => .arithmetic expression quoted
    | _ => .output inside quoted
  | _ => .output inside quoted

/-- The expansion after a dollar sign, if there is one. -/
def expansionAt (quoted : Bool) : Octets → Except Fault (Option (Piece × Octets))
  | '(' :: rest =>
    match span '(' ')' 0 .open rest with
    | some (inside, rest) => .ok (some (parenthesizedPiece quoted inside, rest))
    | none => .error (.unexpected Sign.scriptEnd.name (some Sign.closeParenthesis.name))
  | '{' :: rest =>
    match span '{' '}' 0 (if quoted then .text else .open) rest with
    | some (inside, rest) => .ok (some (bracedPiece quoted inside, rest))
    | none => .error .openBrace
  | cs =>
    match nameAt cs, cs with
    | [], c :: rest =>
      if c.isDigit || isParameterSign c then
        .ok (some (.parameter (String.ofList [c]) .value quoted, rest))
      else .ok none
    | [], [] => .ok none
    | name, _ => .ok (some (.parameter (String.ofList name) .value quoted, cs.drop name.length))

/-! ## Words -/

/-- A character that ends a word outside quotes. -/
def endsWord (c : Char) : Bool :=
  [' ', '\t', '\n', ';', '&', '|', '<', '>', '(', ')'].contains c

/-- The pieces of a word from a region on, and what is after the word. A test tells which
characters end it outside quotes. The number bounds the pieces. -/
def wordFrom (ends : Char → Bool) :
    (bound : Nat) → Region → Octets → Except Fault (Word × Octets)
  | 0, _, cs => .ok ([], cs)
  | bound + 1, region, cs =>
    let quoted := region ≠ .open
    let piece (p : Piece) (region : Region) (rest : Octets) : Except Fault (Word × Octets) := do
      let (word, rest) ← wordFrom ends bound region rest
      return (p :: word, rest)
    let plain (c : Char) (rest : Octets) := piece (.literal c quoted) region rest
    match region, cs with
    | .open, [] | .text, [] => .ok ([], [])
    | _, [] => .error .openQuote
    | .singleQuoted, c :: rest =>
      if c = '\'' then wordFrom ends bound .open rest else plain c rest
    | _, '\\' :: '\n' :: rest => wordFrom ends bound region rest
    | .open, '\\' :: c :: rest => piece (.literal c true) .open rest
    | _, '\\' :: c :: rest =>
      if ['$', '`', '\\'].contains c ∨ c = '"' ∧ region = .doubleQuoted then plain c rest
      else plain '\\' (c :: rest)
    | _, '$' :: rest => do
      match ← expansionAt quoted rest with
      | some (p, rest) => piece p region rest
      | none => plain '$' rest
    | _, '`' :: rest =>
      match backquoted rest with
      | some (script, rest) => piece (.output script quoted) region rest
      | none => .error .openBackquote
    | .doubleQuoted, '"' :: rest => wordFrom ends bound .open rest
    | .open, '"' :: rest => piece .quotes .doubleQuoted rest
    | .open, '\'' :: rest => piece .quotes .singleQuoted rest
    | .open, c :: rest => if ends c then .ok ([], cs) else plain c rest
    | _, c :: rest => plain c rest

/-- The word at the start of a text, and what is after it. -/
def wordAt (cs : Octets) : Except Fault (Word × Octets) :=
  wordFrom endsWord (cs.length + 1) .open cs

/-- A text that is a word as a whole. -/
def wholeWord (cs : Octets) : Except Fault Word :=
  (wordFrom (fun _ => false) (cs.length + 1) .open cs).map Prod.fst

/-- A text with expansions, in which quotes mean nothing. -/
def textWord (cs : Octets) : Except Fault Word :=
  (wordFrom endsWord (cs.length + 1) .text cs).map Prod.fst

/-! ## Tokens -/

/-- What a script is made of. -/
inductive Token where
  | word (word : Word)
  | sign (sign : Sign)
  | redirection (redirection : Redirection)
  /-- A redirection whose text is still to come. -/
  | textTo (descriptor : Nat)
  /-- The text of the first redirection that still needs one. -/
  | text (body : Word)
  /-- From here on the script cannot be read. -/
  | broken (fault : Fault)
  deriving DecidableEq, Repr

/-- A redirection whose text has not been read. -/
structure Pending where
  /-- The line that ends the text. -/
  delimiter : Octets
  /-- Nothing in the text is expanded. -/
  isLiteral : Bool
  /-- Tabulators at the start of lines are dropped. -/
  dropsTabs : Bool

/-- The text of a redirection, up to the line that ends it, and what is after that line. The
number bounds the lines. -/
def Pending.take (p : Pending) : (bound : Nat) → Octets → Octets × Octets
  | 0, cs => ([], cs)
  | _, [] => ([], [])
  | bound + 1, cs =>
    let line := cs.takeWhile (· ≠ '\n')
    let lineEnd := (cs.drop line.length).take 1
    let rest := cs.drop (line.length + 1)
    let kept := if p.dropsTabs then line.dropWhile (· = '\t') else line
    if kept = p.delimiter then ([], rest)
    else
      let (body, rest) := p.take bound rest
      (kept ++ lineEnd ++ body, rest)

/-- The texts of redirections one after another, and what is after them. -/
def takeTexts : List Pending → Octets → List Token × Octets
  | [], cs => ([], cs)
  | p :: rest, cs =>
    let (body, cs) := p.take (cs.length + 1) cs
    let token : Token :=
      if p.isLiteral then .text (body.map fun c => .literal c true)
      else match textWord body with
        | .ok word => .text word
        | .error fault => .broken fault
    let (tokens, cs) := takeTexts rest cs
    (token :: tokens, cs)

/-- How a redirection is written. -/
inductive Arrow where
  | opening (opening : Opening)
  | duplicate
  | text (dropsTabs : Bool)
  deriving DecidableEq, Repr

/-- The arrow at the start of a text: its descriptor if none is given, and what is after it. -/
def arrowAt : Octets → Option (Arrow × Nat × Octets)
  | '<' :: '<' :: '-' :: rest => some (.text true, 0, rest)
  | '<' :: '<' :: rest => some (.text false, 0, rest)
  | '<' :: '&' :: rest => some (.duplicate, 0, rest)
  | '<' :: '>' :: rest => some (.opening .readWrite, 0, rest)
  | '<' :: rest => some (.opening .read, 0, rest)
  | '>' :: '>' :: rest => some (.opening .append, 1, rest)
  | '>' :: '&' :: rest => some (.duplicate, 1, rest)
  | '>' :: '|' :: rest => some (.opening .write, 1, rest)
  | '>' :: rest => some (.opening .write, 1, rest)
  | _ => none

/-- The sign at the start of a text, and what is after it. -/
def signAt : Octets → Option (Sign × Octets)
  | '\n' :: rest => some (.lineEnd, rest)
  | ';' :: ';' :: rest => some (.branchEnd, rest)
  | ';' :: rest => some (.semicolon, rest)
  | '&' :: '&' :: rest => some (.andAlso, rest)
  | '&' :: rest => some (.ampersand, rest)
  | '|' :: '|' :: rest => some (.orElse, rest)
  | '|' :: rest => some (.bar, rest)
  | '(' :: rest => some (.openParenthesis, rest)
  | ')' :: rest => some (.closeParenthesis, rest)
  | _ => none

/-- How the start of a text is named in a complaint. -/
def nameOfNext (cs : Octets) : String :=
  match signAt cs with
  | some (sign, _) => sign.name
  | none => if cs.isEmpty then Sign.scriptEnd.name else "redirection"

/-- The redirection of an arrow to the word at the start of a text, and what is after it. -/
def redirectionAt (arrow : Arrow) (descriptor : Nat) (cs : Octets) :
    Except Fault (Token × List Pending × Octets) := do
  let cs := cs.dropWhile fun c => c = ' ' || c = '\t'
  let (word, rest) ← wordAt cs
  if word.isEmpty then throw (.unexpected (nameOfNext cs) none)
  match arrow with
  | .opening opening => return (.redirection ⟨descriptor, .file opening word⟩, [], rest)
  | .duplicate => return (.redirection ⟨descriptor, .duplicate word⟩, [], rest)
  | .text dropsTabs => return (.textTo descriptor, [⟨word.text, word.isQuoted, dropsTabs⟩], rest)

/-- The tokens of a text with their lines, counted in a script that has a number of line ends.
Some redirections before may still need their texts. The number bounds the tokens. -/
def tokensFrom (lineEnds : Nat) : (bound : Nat) → List Pending → Octets → List (Nat × Token)
  | 0, _, _ => []
  | bound + 1, pending, cs =>
    let line (rest : Octets) : Nat := lineEnds + 1 - rest.count '\n'
    let redirected (arrow : Arrow) (descriptor : Nat) (after : Octets) : List (Nat × Token) :=
      match redirectionAt arrow descriptor after with
      | .ok (token, more, rest) =>
        (line rest, token) :: tokensFrom lineEnds bound (pending ++ more) rest
      | .error fault => [(line after, .broken fault)]
    match cs with
    | [] =>
      ((takeTexts pending []).1 ++ [Token.sign .scriptEnd]).map fun token => (line [], token)
    | '\\' :: '\n' :: rest => tokensFrom lineEnds bound pending rest
    | ' ' :: rest | '\t' :: rest => tokensFrom lineEnds bound pending rest
    | '#' :: rest => tokensFrom lineEnds bound pending (rest.dropWhile (· ≠ '\n'))
    | '\n' :: rest =>
      let (texts, after) := takeTexts pending rest
      (line rest, .sign .lineEnd) :: (texts.map fun token => (line rest, token)) ++
        tokensFrom lineEnds bound [] after
    | _ =>
      match signAt cs, arrowAt cs with
      | some (sign, rest), _ =>
        (line rest, .sign sign) :: tokensFrom lineEnds bound pending rest
      | none, some (arrow, descriptor, rest) => redirected arrow descriptor rest
      | none, none =>
        match wordAt cs with
        | .error fault => [(line [], .broken fault)]
        | .ok (word, rest) =>
          match word, arrowAt rest with
          | [.literal c false], some (arrow, descriptor, after) =>
            if c.isDigit then redirected arrow (c.toNat - '0'.toNat) after
            else (line rest, .word word) :: redirected arrow descriptor after
          | _, _ => (line rest, .word word) :: tokensFrom lineEnds bound pending rest

/-- The tokens in which redirections have got their texts. -/
def attachTexts : (texts : List Word) → List (Nat × Token) → List (Nat × Token)
  | _, [] => []
  | texts, (line, .textTo descriptor) :: rest =>
    (line, .redirection ⟨descriptor, .text (texts.headD [])⟩) :: attachTexts texts.tail rest
  | texts, (_, .text _) :: rest => attachTexts texts rest
  | texts, token :: rest => token :: attachTexts texts rest

/-- The words, signs and redirections of a script, with their lines. -/
def tokens (script : Octets) : List (Nat × Token) :=
  let found := tokensFrom (script.count '\n') (script.length + 1) [] script
  let texts := found.filterMap fun
    | (_, .text body) => some body
    | _ => none
  attachTexts texts found

end CapabilityPipeline.Shell
