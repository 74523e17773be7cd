import CapabilityPipeline.Shell.Condition
import CapabilityPipeline.Shell.Expansion
import CapabilityPipeline.Shell.Printing
import CapabilityPipeline.Shell.Tool

/-!
# Commands of the shell itself

Commands that look at the shell or change it. Some of them are special: when one of these is
misused, the shell ends.

Results:

* `Builtin.named?`: the command of a name that runs no other command.
* `Builtin.isSpecial`: the special ones.
-/

namespace CapabilityPipeline.Shell

open Text (Octets)

namespace Builtin

/-- A command whose misuse ends the shell. -/
def isSpecial (name : String) : Bool :=
  [".", ":", "break", "continue", "eval", "exec", "exit", "export", "readonly", "return", "set",
    "shift", "times", "trap", "unset"].contains name

/-- Says how the command that speaks was misused. -/
def misused (complaint : Octets) : Act Nat := do
  let speaker := (← Act.shell).speaker
  if speaker.any fun name => isSpecial (String.ofList name) then Act.fail complaint
  else
    Act.complain complaint
    return 2

/-- The status that an argument tells, or that of the last command. -/
def statusArgument : List Octets → Act Nat
  | [] => do return (← Act.shell).status
  | text :: _ => do
    match numberOf? text with
    | some n =>
      if 0 ≤ n ∧ n ≤ 2147483647 then return n.toNat
      else misused (Octets.ofText "Illegal number: " ++ text)
    | none => misused (Octets.ofText "Illegal number: " ++ text)

/-! ## Leaving -/

/-- Ends the shell. -/
def exit : Tool := fun arguments => do
  throw (.exit ((← statusArgument arguments) % 256))

/-- Ends a function or a file. -/
def return' : Tool := fun arguments => do
  throw (.finish ((← statusArgument arguments) % 256))

/-- Ends loops, or their current turns. There may be fewer than are asked for. -/
def leave (stop : Nat → Stop) : Tool := fun arguments => do
  let wanted ← if arguments.isEmpty then pure 1 else statusArgument arguments
  if wanted = 0 then
    misused (Octets.ofText "Illegal number: " ++ arguments.headD [])
  else
    let loops := min wanted (← Act.shell).loops
    if loops = 0 then return 0
    Act.setStatus 0
    throw (stop loops)

/-! ## Variables -/

/-- Sets the variables of arguments that are assignments. Something is done with each name
before. -/
def assignEach (before : String → Act Unit) : Tool := fun arguments => do
  for argument in arguments do
    let name := argument.takeWhile (· ≠ '=')
    if name = [] ∨ nameAt name ≠ name then
      let _ ← misused (name ++ Octets.ofText ": bad variable name")
    before (String.ofList name)
    if name.length < argument.length then
      Act.assign (String.ofList name) (some (argument.drop (name.length + 1)))
  return 0

/-- Sets variables for a function only. -/
def local' : Tool :=
  assignEach fun name => do
    let before ← Act.lookup? name
    match (← Act.shell).locals with
    | some others => Act.modifyShell fun s => { s with locals := some ((name, before) :: others) }
    | none => Act.fail (Octets.ofText "not in a function")

/-- Sets variables that keep their values. -/
def readonly : Tool := fun arguments => do
  let status ← assignEach (fun _ => pure ()) arguments
  let names := arguments.map fun argument => String.ofList (argument.takeWhile (· ≠ '='))
  Act.modifyShell fun s => { s with constants := names ++ s.constants }
  return status

/-- Sets variables that other programs see. -/
def export' : Tool :=
  assignEach fun name => Act.modifyShell fun s => { s with exports := name :: s.exports }

/-- Removes variables or functions. -/
def unset : Tool := fun arguments => do
  let (given, names) := Tool.letters arguments
  for name in names.map String.ofList do
    if given.contains 'f' then
      Act.modifyShell fun s => { s with functions := s.functions.filter fun f => f.1 ≠ name }
    else Act.assign name none
  return 0

/-- Drops the first arguments of the shell. -/
def shift : Tool := fun arguments => do
  let count ← if arguments.isEmpty then pure 1 else statusArgument arguments
  if (← Act.shell).arguments.length < count then
    misused (Octets.ofText "can't shift that many")
  else
    Act.modifyShell fun s => { s with arguments := s.arguments.drop count }
    return 0

/-- Options by name. Most of them change nothing here. -/
def options : List (String × Char) :=
  [("errexit", 'e'), ("noglob", 'f'), ("ignoreeof", 'I'), ("interactive", 'i'), ("monitor", 'm'),
    ("noexec", 'n'), ("stdin", 's'), ("xtrace", 'x'), ("verbose", 'v'), ("vi", 'V'),
    ("emacs", 'E'), ("noclobber", 'C'), ("allexport", 'a'), ("notify", 'b'), ("nounset", 'u')]

/-- Turns an option of the shell on or off. -/
def setOption (on : Bool) (letter : Char) : Act Unit :=
  Act.modifyShell fun s => match letter with
    | 'e' => { s with stopsOnFailure := on }
    | 'u' => { s with requiresVariables := on }
    | 'f' => { s with keepsPatterns := on }
    | _ => s

/-- The complaint about letters of which one stands for no option. -/
def optionComplaint? (letters : Octets) : Option Octets :=
  (letters.find? fun letter => !options.any fun option => option.2 = letter).map
    fun letter => Octets.ofText "Illegal option -" ++ [letter]

/-- Turns options on or off by their letters. -/
def setOptions (on : Bool) (letters : Octets) : Act Nat := do
  match optionComplaint? letters with
  | some complaint => misused complaint
  | none =>
    for letter in letters do setOption on letter
    return 0

/-- Sets options and the arguments of the shell. -/
def setArguments : List Octets → Act Nat
  | [] => return 0
  | ['-', '-'] :: rest => do
    Act.modifyShell fun s => { s with arguments := rest }
    return 0
  | [sign, 'o'] :: name :: rest => do
    match options.lookup (String.ofList name) with
    | some letter => setOption (sign = '-') letter
    | none => let _ ← misused (Octets.ofText "Illegal option -o " ++ name)
    setArguments rest
  | (sign :: letter :: letters) :: rest => do
    if sign = '-' ∨ sign = '+' then
      let _ ← setOptions (sign = '-') (letter :: letters)
      setArguments rest
    else
      Act.modifyShell fun s => { s with arguments := (sign :: letter :: letters) :: rest }
      return 0
  | arguments => do
    Act.modifyShell fun s => { s with arguments }
    return 0

/-! ## Reading -/

/-- The fields of a line for a number of variables. The last one gets all that is left. Escaped
characters separate nothing. -/
def fieldsOf (separators : Octets) : (count : Nat) → List Glyph → List Octets
  | 0, _ => []
  | 1, line =>
    let isBlank (g : Glyph) : Bool := g.splits && separators.contains g.char && isSpace g.char
    let trimmed := ((line.dropWhile isBlank).reverse.dropWhile isBlank).reverse
    [trimmed.map Glyph.char]
  | count + 1, line =>
    let ends (g : Glyph) : Bool := g.splits && separators.contains g.char
    let isBlank (g : Glyph) : Bool := ends g && isSpace g.char
    let line := line.dropWhile isBlank
    let field := line.takeWhile (!ends ·)
    let rest := (line.drop field.length).dropWhile isBlank
    let blankOnly := (line.drop field.length).head?.any isBlank
    let rest := if rest.head?.any ends && (!blankOnly || rest.head?.any (!isBlank ·)) then rest.tail
      else rest
    field.map Glyph.char :: fieldsOf separators count rest

/-- How many bytes the first line has, with its end. Unless it is read as it is, a backslash joins
it to the next one. -/
def lineLength (raw : Bool) : Octets → Nat
  | '\\' :: c :: rest =>
    if raw then if c = '\n' then 2 else 2 + lineLength raw rest else 2 + lineLength raw rest
  | '\n' :: _ => 1
  | _ :: rest => 1 + lineLength raw rest
  | [] => 0

/-- A line in which backslashes are taken together with the character after them. -/
def unescaped : Octets → List Glyph
  | '\\' :: '\n' :: rest => unescaped rest
  | '\\' :: c :: rest => ⟨c, true, false⟩ :: unescaped rest
  | c :: rest => ⟨c, false, true⟩ :: unescaped rest
  | [] => []

/-- Reads a line into variables. It fails where the input ends before the line does. -/
def read : Tool := fun arguments => do
  let (given, names) := Tool.letters arguments
  if names.isEmpty then return (← misused (Octets.ofText "arg count"))
  let raw := given.contains 'r'
  let bytes ← Act.take 0 (lineLength raw)
  let line := if bytes.getLast? = some '\n' then bytes.dropLast else bytes
  let glyphs := if raw then line.map (⟨·, false, true⟩) else unescaped line
  let fields := fieldsOf (← Expansion.separators) names.length glyphs
  for (name, value) in names.zip fields do
    Act.assign (String.ofList name) (some value)
  return if line.length < bytes.length then 0 else 1

/-! ## Directories and conditions -/

/-- Changes the directory from which paths start. -/
def cd : Tool := fun arguments => do
  let (_, paths) := Tool.letters arguments
  if paths.isEmpty then return 0
  let path := paths.headD []
  let place ← Act.locate path
  let files := (← get).files
  match files.locate place with
  | .ok found =>
    if files.entry? found = some .directory then
      Act.modifyShell fun s => { s with directory := "/" ++ "/".intercalate found }
      return 0
    misused (Octets.ofText "can't cd to " ++ path)
  | .error _ => misused (Octets.ofText "can't cd to " ++ path)

/-- Prints which permissions new files lack. -/
def umask : Tool := fun arguments => do
  if arguments.isEmpty then Act.writeText 1 "0022\n"
  return 0

/-- Decides a condition, which may be between brackets. -/
def test (bracketed : Bool) : Tool := fun arguments => do
  let closed := arguments.getLast? = some [']']
  if bracketed ∧ !closed then
    misused (Octets.ofText "missing ]")
  else
    let words := if bracketed then arguments.dropLast else arguments
    let machine ← get
    let find (path : Octets) : Option Entry :=
      if path.isEmpty then none
      else (machine.files.find (Path.join machine.shell.directory (Octets.text path))).toOption
    match Condition.holds find words with
    | .ok result => return if result then 0 else 1
    | .error fault => misused fault.message

/-! ## Printing -/

/-- Prints a text, or complains that it cannot. -/
def print (name : String) (text : Octets) : Act Nat := do
  if (← Act.shell).descriptors.any fun d => d.1 = 1 then
    Act.write 1 text
    return 0
  Act.complain (Octets.ofText s!"{name}: I/O error")
  return 1

/-- Prints its arguments. -/
def echo : Tool := fun arguments =>
  print "echo" (echoed arguments)

/-- Prints a format filled with arguments. -/
def printf : Tool := fun arguments => do
  match if arguments.head? = some ['-', '-'] then arguments.tail else arguments with
  | [] => misused (Octets.ofText "usage: printf format [arg ...]")
  | ('-' :: letter :: _) :: _ =>
    misused (Octets.ofText "Illegal option -" ++ [letter])
  | format :: rest =>
    let p := printed format rest
    let status ← print "printf" p.text
    for fault in p.faults do
      Act.complain (match fault with
        | .noNumber argument => argument ++ Octets.ofText ": expected numeric value"
        | .partly argument => argument ++ Octets.ofText ": not completely converted")
    match p.broken with
    | some directive => misused (directive ++ Octets.ofText ": invalid directive")
    | none => return if p.faults.isEmpty then status else 1

/-! ## Signals -/

/-- Signals by name. -/
def signals : List (String × Nat) :=
  [("EXIT", 0), ("HUP", 1), ("INT", 2), ("QUIT", 3), ("ILL", 4), ("TRAP", 5), ("ABRT", 6),
    ("BUS", 7), ("FPE", 8), ("KILL", 9), ("USR1", 10), ("SEGV", 11), ("USR2", 12), ("PIPE", 13),
    ("ALRM", 14), ("TERM", 15), ("STKFLT", 16), ("CHLD", 17), ("CONT", 18), ("STOP", 19),
    ("TSTP", 20), ("TTIN", 21), ("TTOU", 22), ("URG", 23), ("XCPU", 24), ("XFSZ", 25),
    ("VTALRM", 26), ("PROF", 27), ("WINCH", 28), ("POLL", 29), ("PWR", 30), ("SYS", 31)]

/-- How a process is spoken of that a signal has ended. -/
def signalTexts : List (Nat × String) :=
  [(1, "Hangup"), (3, "Quit"), (6, "Aborted"), (9, "Killed"), (10, "User defined signal 1"),
    (11, "Segmentation fault"), (12, "User defined signal 2"), (14, "Alarm clock"),
    (15, "Terminated")]

/-- The signal of a name or a number. -/
def signal? (text : Octets) : Option Nat :=
  if text.isEmpty then none
  else if text.all Char.isDigit then
    let n := ofDigits 10 text
    if n < 65 then some n else none
  else signals.lookup (String.ofList (text.map Char.toUpper))

/-- Signals that do nothing. -/
def ignoredSignals : List Nat := [0, 17, 18, 23, 28]

/-- Signals that make a process wait for ever. -/
def stoppingSignals : List Nat := [19, 20, 21, 22]

/-- Sets what runs when signals reach the shell. -/
def trap : Tool := fun arguments => do
  let arguments := if arguments.head? = some ['-', '-'] then arguments.tail else arguments
  let (action, names) : Option Octets × List Octets := match arguments with
    | [] => (none, [])
    | [name] => (none, [name])
    | ['-'] :: names => (none, names)
    | action :: names =>
      if (signal? action).isSome ∧ action.all Char.isDigit then (none, action :: names)
      else (some action, names)
  let mut status := 0
  for name in names do
    match signal? name with
    | none =>
      Act.write 2 (Octets.ofText "trap: " ++ name ++ Octets.ofText ": bad trap\n")
      status := 1
    | some n =>
      Act.modifyShell fun s =>
        let others := s.traps.filter fun t => t.1 ≠ n
        { s with traps := (action.map (n, ·)).toList ++ others }
  return status

/-- The command in the background that the number of its process names. -/
def job? (m : Machine) (process : Octets) : Option Job :=
  match numberOf? process with
  | some number => m.jobs.zipIdx.findSome? fun (job, index) =>
      if number = Expansion.processId + index + 1 then some job else none
  | none => none

/-- Waits for commands in the background: for those that are named, or for all. -/
def wait : Tool := fun arguments => do
  let machine ← get
  if arguments.isEmpty then
    for job in machine.jobs do Act.waitUntil job.endsAt
    return 0
  let mut status := 0
  for process in arguments do
    match job? machine process with
    | some job =>
      Act.waitUntil job.endsAt
      status := job.status
    | none => status := 127
  return status

/-- The signal and the processes that arguments name. -/
def killArguments : List Octets → Except Octets (Nat × List Octets)
  | ['-', 's'] :: name :: rest => do
    match signal? name with
    | some n => return (n, rest)
    | none => throw (Octets.ofText "invalid signal number or name: " ++ name)
  | ['-', 's'] :: [] => throw (Octets.ofText "No arg for -s option")
  | ['-', '-'] :: rest => return (15, rest)
  | ('-' :: c :: name) :: rest => do
    match signal? (c :: name) with
    | some n => return (n, rest.dropWhile (· = ['-', '-']))
    | none => throw (Octets.ofText "Illegal option -" ++ [c])
  | arguments => return (15, arguments)

/-! ## All of them -/

/-- The command of a name that runs no other command. -/
def named? (name : String) : Option Tool :=
  match name with
  | ":" | "true" | "ulimit" | "alias" | "unalias" | "hash" => some fun _ => return 0
  | "umask" => some umask
  | "false" => some fun _ => return 1
  | "echo" => some echo
  | "printf" => some printf
  | "test" | "[" => some (test (name = "["))
  | "pwd" => some Tool.pwd
  | "cd" => some cd
  | "exit" => some exit
  | "return" => some return'
  | "break" => some (leave .leave)
  | "continue" => some (leave .turn)
  | "export" => some export'
  | "readonly" => some readonly
  | "local" => some local'
  | "unset" => some unset
  | "shift" => some shift
  | "set" => some setArguments
  | "read" => some read
  | "trap" => some trap
  | "wait" => some wait
  | _ => none

end Builtin

end CapabilityPipeline.Shell
