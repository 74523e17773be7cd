import CapabilityPipeline.Shell.Builtin
import CapabilityPipeline.Shell.Reader

/-!
# Running scripts

A command runs in the shell, or in a shell of its own where it is part of a pipeline, in
parentheses or in the background. A simple command is a function of the script, a command of the
shell itself, or a tool. All functions here are given how commands nested in theirs are run;
`execute` ties the knot, and goes on for ever where it would nest too deep.

Results:

* `runText`: a script run line by line.
* `execute`: a command of any kind.
* `runShell`: a shell started with arguments.
-/

namespace CapabilityPipeline.Shell

open Text (Octets)

/-- How commands are run. What is guarded may fail without ending the shell. -/
abbrev Runner := (guarded : Bool) → Command → Act Unit

/-! ## Scripts -/

/-- Runs a script line by line, up to a line that cannot be read. Its lines are counted on from
the line of the command that runs. -/
def runText (run : Runner) (text : Octets) : Act Unit := do
  let before := (← Act.shell).linesBefore
  Act.modifyShell fun s => { s with linesBefore := s.line - 1 }
  let (commands, misreading) := readScript text
  for command in commands do
    run false command
  if let some m := misreading then
    Act.modifyShell fun s => { s with line := s.linesBefore + m.line }
    Act.fail (Octets.ofText m.fault.message)
  Act.modifyShell fun s => { s with linesBefore := before }

/-- Runs a script to the exit of the shell, and then what is to run there. -/
def toExit (run : Runner) (act : Act Unit) : Act Nat := do
  let status ← Act.statusOf act
  Act.setStatus status
  match (← Act.shell).traps.lookup 0 with
  | some script =>
    Act.modifyShell fun s => { s with traps := [] }
    let last ← Act.statusOf (do runText run script; throw (.exit status))
    return last
  | none => return status

/-- Does something in a shell of its own. What it ends with is its status. -/
def inSubshell (run : Runner) (act : Act Unit) : Act Nat :=
  Act.restoring do
    Act.modifyShell fun s => { s with traps := s.traps.filter fun t => t.2.isEmpty, loops := 0 }
    toExit run act

/-- The output of a script that runs in a shell of its own. -/
def outputOf (run : Runner) (script : Octets) : Act Octets := do
  let sink ← Act.newStream (.sink .empty)
  let status ← inSubshell run do
    Act.connect 1 (some sink)
    runText run script
  Act.modifyShell fun s => { s with outputStatus := status }
  let output := Act.outputAt (← get) sink
  Act.waitUntil output.heldUntil
  return output.octets

/-! ## Redirections -/

/-- Why a path cannot be opened, as a shell says it. -/
def openingComplaint (opening : Opening) (path : Octets) (e : FileError) : Octets :=
  let missing := e = .notFound ∨ e = .notADirectory
  let (doing, reason) := match opening with
    | .read => ("open", if missing then "No such file" else e.reason)
    | _ => ("create", if missing then "Directory nonexistent" else e.reason)
  Octets.ofText s!"cannot {doing} " ++ path ++ Octets.ofText s!": {reason}"

/-- The stream of a path that stands for a device or a descriptor. -/
def deviceStream? (path : Octets) : Act (Option (Option Nat)) := do
  let s ← Act.shell
  match Tool.deviceOf path with
  | "/dev/null" => return some (some (← Act.newStream .nowhere))
  | "/dev/stdin" | "/dev/fd/0" => return some (s.descriptors.lookup 0)
  | "/dev/stdout" | "/dev/fd/1" => return some (s.descriptors.lookup 1)
  | "/dev/stderr" | "/dev/fd/2" => return some (s.descriptors.lookup 2)
  | _ => return none

/-- Opens a file as a stream. -/
def openFile (opening : Opening) (path : Octets) : Act (Except FileError (Option Nat)) := do
  if let some stream ← deviceStream? path then return .ok stream
  let place ← Act.locate path
  let files := (← get).files
  let found := files.find place
  let truncated := opening = .write ∨ found.toOption.isNone ∧ opening ≠ .read
  if truncated then
    if let some e ← Act.change fun files => files.write place [] then return .error e
  match found, (← get).files.locate place with
  | .error e, _ => if truncated then pure () else return .error e
  | .ok .directory, _ =>
    if opening = .read then return .ok (some (← Act.newStream .directory))
    else return .error .isADirectory
  | .ok (.file _), _ => pure ()
  match (← get).files.locate place with
  | .ok found => return .ok (some (← Act.newStream (.file found 0 (opening = .append))))
  | .error e => return .error e

/-- Makes a redirection. Fails with a complaint. -/
def redirect (run : Runner) (r : Redirection) : Act (Option Octets) := do
  match r.target with
  | .file opening word =>
    let path ← Expansion.text (outputOf run) word
    match ← openFile opening path with
    | .ok stream =>
      Act.connect r.descriptor stream
      return none
    | .error e => return some (openingComplaint opening path e)
  | .duplicate word =>
    match ← Expansion.text (outputOf run) word with
    | ['-'] =>
      Act.connect r.descriptor none
      return none
    | [c] =>
      if c.isDigit then
        match (← Act.shell).descriptors.lookup (c.toNat - '0'.toNat) with
        | some stream =>
          Act.connect r.descriptor (some stream)
          return none
        | none => return some ([c] ++ Octets.ofText ": Bad file descriptor")
      else Act.fail (Octets.ofText Fault.badDescriptor.message)
    | _ => Act.fail (Octets.ofText Fault.badDescriptor.message)
  | .text body =>
    let text ← Expansion.text (outputOf run) body
    Act.connect r.descriptor (some (← Act.newStream (.source text 0)))
    return none

/-- Makes redirections in order, up to one that fails. Tells whether none has. -/
def redirectAll (run : Runner) : List Redirection → Act Bool
  | [] => return true
  | r :: rest => do
    match ← redirect run r with
    | none => redirectAll run rest
    | some complaint =>
      Act.complain complaint
      return false

/-! ## Simple commands -/

/-- Runs a shell that has not begun, in the same machine. -/
def nestedShell (run : Runner) (shell : State) (act : Act Unit) : Act Nat :=
  Act.restoring do
    Act.modifyShell fun s =>
      let values := s.values.filter fun v => s.exports.contains v.1
      { shell with values, exports := s.exports }
    toExit run act

/-- Waits for a process. One that a signal ends is spoken of. -/
def waiting (act : Act Nat) : Act Nat := do
  try act
  catch
    | .killed signal =>
      match Builtin.signalTexts.lookup signal with
      | some text => Act.writeText 2 s!"{text}\n"
      | none => pure ()
      return 128 + signal
    | stop => throw stop

/-- The letters of the options that a shell is started with, and the arguments after them. -/
def startOptions : List Octets → Octets × List Octets
  | ['-', '-'] :: rest | ['-'] :: rest => ([], rest)
  | ('-' :: letter :: letters) :: rest =>
    let (others, rest) := startOptions rest
    (letter :: letters ++ others, rest)
  | arguments => ([], arguments)

/-- Runs a shell that is started with arguments: a script that is an argument, its input, or a
script in a file. Options come first. -/
def startShell (run : Runner) (name : Octets) (arguments : List Octets) : Act Nat := do
  let (letters, rest) := startOptions arguments
  let s ← Act.shell
  let known := letters.filter fun c => c ≠ 'c'
  let nested (name : Octets) (arguments : List Octets) (text : Octets) : Act Nat :=
    nestedShell run (State.start name arguments s.directory s.descriptors) do
      let _ ← Builtin.setOptions true known
      runText run text
  let complain (complaint : Octets) : Act Nat := do
    Act.write 2 (name ++ Octets.ofText ": 0: " ++ complaint ++ ['\n'])
    return 2
  if let some complaint := Builtin.optionComplaint? known then return (← complain complaint)
  if letters.contains 'c' then
    match rest with
    | text :: rest => nested (rest.headD name) rest.tail text
    | [] => complain (Octets.ofText "-c requires an argument")
  else if letters.contains 's' then nested name rest (← Act.takeAll 0)
  else match rest with
    | [] => nested name [] (← Act.takeAll 0)
    | path :: arguments =>
      match ← Act.find path with
      | .error e => complain (openingComplaint .read path e)
      | .ok (.file content) => nested path arguments (Octets.ofSymbols content)
      | .ok .directory => nested path arguments []

/-- The name of a program that may be given with a directory of programs. -/
def programName (program : String) : String :=
  if (Path.parent? program).any fun dir => dir = "/bin" || dir = "/usr/bin" then
    (Path.fileName? program).getD program
  else program

/-- Starts a program by name. A file that is named by its path is no program. -/
def startProgram (run : Runner) (program : Octets) (arguments : List Octets) : Act Nat := do
  let name := programName (Octets.text program)
  if name = "sh" ∨ name = "dash" then
    return (← waiting (startShell run program arguments))
  if let some tool := Tool.named? name then return (← tool arguments)
  if program.contains '/' then
    if let .ok _ ← Act.find program then
      Act.complain (program ++ Octets.ofText ": Permission denied")
      return 126
  Act.complain (program ++ Octets.ofText ": not found")
  return 127

/-- Sends a signal. The shell is the only process that there is. -/
def kill (run : Runner) (arguments : List Octets) : Act Nat := do
  match Builtin.killArguments arguments with
  | .error complaint => Builtin.misused complaint
  | .ok (_, []) =>
    Builtin.misused (Octets.ofText "Usage: kill [-s sigspec | -signum | -sigspec] pid")
  | .ok (signal, process :: _) =>
    if process ≠ textOfInt Expansion.processId then
      match numberOf? process with
      | some _ => Act.complain (Octets.ofText "No such process")
      | none => return (← Builtin.misused (Octets.ofText "Illegal number: " ++ process))
      return 1
    match (← Act.shell).traps.lookup signal with
    | some script =>
      if signal ≠ 0 then runText run script
      return 0
    | none =>
      if Builtin.ignoredSignals.contains signal then return 0
      if Builtin.stoppingSignals.contains signal then throw .never
      throw (.killed signal)

/-- Runs a function with arguments. -/
def callFunction (run : Runner) (guarded : Bool) (body : Command) (arguments : List Octets) :
    Act Nat := do
  let before ← Act.shell
  Act.modifyShell fun s => { s with arguments, loops := 0, locals := some [] }
  let restore : Act Unit := do
    for (name, value) in (← Act.shell).locals.getD [] do Act.restore name value
    Act.modifyShell fun s =>
      { s with arguments := before.arguments, loops := before.loops, locals := before.locals }
  tryFinally (do
    try
      run guarded body
      return (← Act.shell).status
    catch
      | .finish status => return status
      | stop => throw stop) restore

/-- Runs the commands of a file in the shell. -/
def source (run : Runner) : List Octets → Act Nat
  | [] => return 0
  | path :: _ => do
    if !path.contains '/' then
      Builtin.misused (path ++ Octets.ofText ": not found")
    else match ← Tool.content path with
      | .error e => Builtin.misused (openingComplaint .read path e)
      | .ok text =>
        try
          Act.modifyShell fun s => { s with status := 0, line := 0 }
          Act.speakingAs path (runText run text)
          return (← Act.shell).status
        catch
          | .finish status => return status
          | stop => throw stop

/-- Runs a script that arguments make up. -/
def evaluate (run : Runner) (arguments : List Octets) : Act Nat := do
  Act.setStatus 0
  runText run (joined arguments)
  return (← Act.shell).status

/-- Ends the shell with a program in its place. -/
def become (run : Runner) : List Octets → Act Nat
  | [] => return 0
  | program :: arguments => do
    Act.modifyShell fun s => { s with traps := [] }
    throw (.exit (← startProgram run program arguments))

/-- Tells what a name stands for, or runs the command of a name that is no function. -/
def command (start : List Octets → Act Nat) (arguments : List Octets) : Act Nat := do
  match arguments with
  | ['-', 'v'] :: names =>
    let mut status := 127
    for name in names do
      let text := Octets.text name
      let known := (Builtin.named? text).isSome || (Builtin.isSpecial text)
      let isTool := (Tool.named? text).isSome || text = "sh"
      if known || isTool then
        Act.writeText 1 ((if known then text else s!"/usr/bin/{text}") ++ "\n")
        status := 0
    return status
  | [] => return 0
  | _ => start arguments

/-- Runs the command of words that is no function. -/
def startWords (run : Runner) : (bound : Nat) → List Octets → Act Nat
  | 0, _ => throw .never
  | _, [] => return 0
  | bound + 1, program :: arguments => do
    let speaking (act : Act Nat) : Act Nat := Act.speakingAs program act
    match String.ofList program with
    | "kill" => speaking (kill run arguments)
    | "eval" => speaking (evaluate run arguments)
    | "." => speaking (source run arguments)
    | "command" => command (startWords run bound) arguments
    | "exec" => speaking (become run arguments)
    | name =>
      match Builtin.named? name with
      | some act => speaking (act arguments)
      | none => startProgram run program arguments

/-- Runs the command of words, which may be a function. -/
def runWords (run : Runner) (guarded : Bool) (words : List Octets) : Act Nat := do
  match (← Act.shell).functions.lookup (String.ofList (words.headD [])) with
  | some body => callFunction run guarded body words.tail
  | none => startWords run (words.length + 1) words

/-- Sets variables to what words stand for. -/
def assignAll (run : Runner) (assignments : List (String × Word)) : Act Unit := do
  for (name, word) in assignments do
    Act.assign name (some (← Expansion.text (outputOf run) word))

/-- Ends the shell if a command has failed that must not fail. -/
def checkFailure (guarded : Bool) : Act Unit := do
  let s ← Act.shell
  if !guarded && s.stopsOnFailure && s.status ≠ 0 then throw (.exit s.status)

/-- Runs a simple command. -/
def runSimple (run : Runner) (guarded : Bool) (line : Nat) (assignments : List (String × Word))
    (words : List Word) (redirections : List Redirection) : Act Unit := do
  Act.modifyShell fun s => { s with line := s.linesBefore + line, outputStatus := 0 }
  let fields ← Expansion.fields (outputOf run) words
  let name := String.ofList (fields.headD [])
  if fields = ["exec".toList] then
    if ← redirectAll run redirections then Act.setStatus 0 else throw (.exit 2)
  else
    let before ← Act.shell
    let status ← Act.keepingDescriptors do
      if !(← redirectAll run redirections) then
        if Builtin.isSpecial name then throw (.exit 2)
        return 2
      assignAll run assignments
      if !fields.isEmpty then
        let names := assignments.map Prod.fst
        Act.modifyShell fun s => { s with exports := names ++ s.exports }
      if fields.isEmpty then return (← Act.shell).outputStatus
      runWords run guarded fields
    if !fields.isEmpty && !assignments.isEmpty && !Builtin.isSpecial name then
      for (name, _) in assignments do Act.restore name (before.values.lookup name)
      Act.modifyShell fun s => { s with exports := before.exports }
    Act.setStatus status
  checkFailure guarded

/-! ## Commands of all kinds -/

/-- How many turns a loop may take. -/
def maxTurns : Nat := 20000

/-- Does one turn of a loop. Tells whether the loop goes on. -/
def oneTurn (act : Act Unit) : Act Bool := do
  try
    act
    return true
  catch
    | .leave loops => if loops ≤ 1 then return false else throw (.leave (loops - 1))
    | .turn loops => if loops ≤ 1 then return true else throw (.turn (loops - 1))
    | stop => throw stop

/-- Does something as a loop of the shell. Gives the status of the last turn. -/
def asLoop (act : Act Nat) : Act Unit := do
  Act.modifyShell fun s => { s with loops := s.loops + 1 }
  Act.setStatus (← tryFinally act (Act.modifyShell fun s => { s with loops := s.loops - 1 }))

/-- Runs the turns of a loop with a condition. The number bounds them. -/
def loopFrom (run : Runner) (guarded whileSucceeds : Bool) (condition body : Command) :
    (bound status : Nat) → Act Nat
  | 0, _ => throw .never
  | bound + 1, status => do
    if !(← oneTurn (run true condition)) then return status
    if decide ((← Act.shell).status = 0) ≠ whileSucceeds then return status
    let goesOn ← oneTurn (run guarded body)
    let status := (← Act.shell).status
    if goesOn then loopFrom run guarded whileSucceeds condition body bound status
    else return status

/-- Runs the body of a loop for each of some words, up to one where it asks to leave. -/
def forEach (run : Runner) (guarded : Bool) (name : String) (body : Command) :
    (status : Nat) → List Octets → Act Nat
  | status, [] => return status
  | _, word :: rest => do
    Act.assign name (some word)
    let goesOn ← oneTurn (run guarded body)
    let status := (← Act.shell).status
    if goesOn then forEach run guarded name body status rest else return status

/-- The body of the first branch with a pattern that a text fits. -/
def branchFor (run : Runner) (text : Octets) : List (List Word × Command) → Act Command
  | [] => return .nothing
  | (patterns, body) :: rest => do
    for word in patterns do
      if (← Expansion.pattern (outputOf run) word).fits text then return body
    branchFor run text rest

/-- Runs the commands of a pipeline, of which the first has its input already. All begin at one
time, and the pipeline ends when all have ended. Gives the status of the last one. -/
def runStages (run : Runner) (start : Nat) : List Command → Act Nat
  | [] => return 0
  | [last] => inSubshell run (run false last)
  | command :: rest => do
    let sink ← Act.newStream (.sink .empty)
    let _ ← inSubshell run do
      Act.connect 1 (some sink)
      run false command
    let finished := (← get).clock
    modify fun m => { m with clock := start }
    let output := Act.outputAt (← get) sink
    let input ← Act.newStream (.source output.octets (max finished output.heldUntil))
    let status ← Act.keepingDescriptors do
      Act.connect 0 (some input)
      runStages run start rest
    Act.waitUntil finished
    return status

/-- Runs a command, given how the commands nested in it are run. -/
def executeWith (run : Runner) : Runner
  | _, .nothing => Act.setStatus 0
  | guarded, .simple line assignments words redirections =>
    runSimple run guarded line assignments words redirections
  | guarded, .redirected line command redirections => do
    Act.modifyShell fun s => { s with line := s.linesBefore + line }
    Act.keepingDescriptors do
      if ← redirectAll run redirections then run guarded command else Act.setStatus 2
    checkFailure guarded
  | guarded, .subshell body => do
    Act.setStatus (← inSubshell run (run guarded body))
    checkFailure guarded
  | guarded, .pipeline commands => do
    Act.setStatus (← runStages run (← get).clock commands)
    checkFailure guarded
  | _, .negation command => do
    run true command
    Act.setStatus (if (← Act.shell).status = 0 then 1 else 0)
  | guarded, .both first second => do
    run true first
    if (← Act.shell).status = 0 then run guarded second
  | guarded, .either first second => do
    run true first
    if (← Act.shell).status ≠ 0 then run guarded second
  | guarded, .sequence first second => do
    run guarded first
    match second with
    | .nothing => return
    | _ => run guarded second
  | _, .background command => do
    let start := (← get).clock
    Act.waitUntil (start + 1)
    let status ← inSubshell run do
      Act.connect 0 (some (← Act.newStream .nowhere))
      run false command
    modify fun m => { m with clock := start, jobs := m.jobs ++ [⟨status, m.clock⟩] }
    Act.setStatus 0
  | guarded, .conditional condition yes no => do
    run true condition
    run guarded (if (← Act.shell).status = 0 then yes else no)
  | guarded, .loop whileSucceeds condition body =>
    asLoop (loopFrom run guarded whileSucceeds condition body maxTurns 0)
  | guarded, .each name words body => do
    let values ← match words with
      | some words => Expansion.fields (outputOf run) words
      | none => pure (← Act.shell).arguments
    asLoop (forEach run guarded name body 0 values)
  | guarded, .choice word branches => do
    let text ← Expansion.text (outputOf run) word
    run guarded (← branchFor run text branches)
  | _, .definition name body => do
    Act.modifyShell fun s =>
      { s with functions := (name, body) :: s.functions.filter fun f => f.1 ≠ name }
    Act.setStatus 0

/-- Runs a command. The number bounds how deep commands are nested. -/
def execute : (bound : Nat) → Runner
  | 0 => fun _ _ => throw .never
  | bound + 1 => executeWith (execute bound)

/-- How deep commands may be nested. -/
def maxNesting : Nat := 600

/-- Runs a shell that is started with arguments. -/
def runShell (arguments : List Octets) : Act Nat :=
  startShell (execute maxNesting) "sh".toList arguments

end CapabilityPipeline.Shell
