import CapabilityPipeline.Files.Tree
import CapabilityPipeline.Shell.Script

/-!
# Shells at work

A shell runs in a machine: it sees files, reads and writes streams through numbered descriptors,
and time passes only while it sleeps. Descriptors of a shell may lead to one stream, and so may
those of shells that one starts from another; what one of them reads or writes, all of them have.

Results:

* `Machine`, `State`: the state of a machine and of the shell that runs in it.
* `Act`: what a shell does, until something stops it.
* `Act.take`, `Act.write`: what is read from and written to a descriptor.
* `Act.complain`: how a shell speaks of what went wrong.
-/

namespace CapabilityPipeline.Shell

open Text (Octets Symbol)

/-! ## The state -/

/-- What has been written to a stream. -/
structure Output where
  /-- The parts that have been written, with the times at which this was done. -/
  parts : List (Nat × Octets)
  /-- Until when someone could have written more. -/
  heldUntil : Nat

namespace Output

/-- Nothing has been written. -/
def empty : Output := ⟨[], 0⟩

/-- All that has been written, in the order of time. -/
def octets (o : Output) : Octets :=
  (o.parts.mergeSort fun a b => a.1 ≤ b.1).flatMap Prod.snd

/-- The output with more written at a time. -/
def add (o : Output) (time : Nat) (bytes : Octets) : Output :=
  match o.parts.getLast? with
  | some (last, before) =>
    if last = time then { o with parts := o.parts.dropLast ++ [(time, before ++ bytes)] }
    else { o with parts := o.parts ++ [(time, bytes)] }
  | none => { o with parts := [(time, bytes)] }

end Output

/-- Where bytes come from and go to. -/
inductive Stream where
  /-- Bytes that are read in order. It shows at a time that there are no more. -/
  | source (left : Octets) (endsAt : Nat)
  | sink (output : Output)
  /-- A file from a position on. -/
  | file (place : Place) (position : Nat) (appends : Bool)
  /-- A directory, which cannot be read like a file. -/
  | directory
  /-- Reading finds nothing, and what is written is lost. -/
  | nowhere

/-- The state of a shell. -/
structure State where
  name : Octets
  arguments : List Octets
  values : List (String × Octets)
  /-- Variables that programs see which the shell starts. -/
  exports : List String
  /-- Variables that cannot be set any more. -/
  constants : List String
  functions : List (String × Command)
  /-- What runs when the shell exits, and when signals reach it. -/
  traps : List (Nat × Octets)
  /-- The path from which paths start. -/
  directory : String
  /-- Streams by descriptor. -/
  descriptors : List (Nat × Nat)
  /-- The status of the last command, and of the last script whose output was taken. -/
  status : Nat
  outputStatus : Nat
  /-- The line of the command that runs, and how many lines are before the script that it is in. -/
  line : Nat
  linesBefore : Nat
  /-- The name of the command that speaks, unless it is the shell itself. -/
  speaker : Option Octets
  /-- What the variables of the function that runs were before, if one runs. -/
  locals : Option (List (String × Option Octets))
  /-- How many loops are running. -/
  loops : Nat
  /-- A command that fails ends the shell. -/
  stopsOnFailure : Bool
  /-- A variable that is missing ends the shell. -/
  requiresVariables : Bool
  /-- A pattern stands for itself, whatever paths fit it. -/
  keepsPatterns : Bool

/-- A shell that has not begun. -/
def State.start (name : Octets) (arguments : List Octets) (directory : String)
    (descriptors : List (Nat × Nat)) : State where
  name := name
  arguments := arguments
  values := []
  exports := []
  constants := []
  functions := []
  traps := []
  directory := directory
  descriptors := descriptors
  status := 0
  outputStatus := 0
  line := 0
  linesBefore := 0
  speaker := none
  locals := none
  loops := 0
  stopsOnFailure := false
  requiresVariables := false
  keepsPatterns := false

/-- A command in the background, which has run to its end. -/
structure Job where
  status : Nat
  endsAt : Nat

/-- A machine in which a shell runs. -/
structure Machine where
  files : FileTree
  streams : List Stream
  /-- How many milliseconds have passed. -/
  clock : Nat
  /-- The commands in the background, in the order in which they were started. -/
  jobs : List Job
  shell : State

/-- What stops a shell, or a part of its script. -/
inductive Stop where
  | exit (status : Nat)
  /-- A signal ends all shells. -/
  | killed (signal : Nat)
  /-- It goes on for ever. -/
  | never
  /-- As many loops end. -/
  | leave (loops : Nat)
  /-- As many loops end, the last one only its current turn. -/
  | turn (loops : Nat)
  /-- The current function or file ends. -/
  | finish (status : Nat)
  deriving DecidableEq, Repr

/-- What a shell does, until something stops it. -/
abbrev Act := ExceptT Stop (StateM Machine)

namespace Act

/-! ## The shell -/

/-- The shell that runs. -/
def shell : Act State := do
  return (← get).shell

/-- Changes the shell that runs. -/
def modifyShell (change : State → State) : Act Unit :=
  modify fun m => { m with shell := change m.shell }

/-- Sets the status of the last command. -/
def setStatus (status : Nat) : Act Unit :=
  modifyShell fun s => { s with status }

/-- The value of a variable. -/
def lookup? (name : String) : Act (Option Octets) := do
  return (← shell).values.lookup name

/-- Sets a variable, or removes it, whether that is allowed or not. -/
def restore (name : String) (value : Option Octets) : Act Unit :=
  modifyShell fun s =>
    let others := s.values.filter fun v => v.1 ≠ name
    { s with values := (value.map (name, ·)).toList ++ others }

/-- Does something in the name of a command. -/
def speakingAs {α : Type} (name : Octets) (act : Act α) : Act α := do
  let before := (← shell).speaker
  modifyShell fun s => { s with speaker := some name }
  tryFinally act (modifyShell fun s => { s with speaker := before })

/-- Does something, and puts the shell back to what it was before, whatever stops it. -/
def restoring {α : Type} (act : Act α) : Act α := do
  let before ← shell
  tryFinally act (modifyShell fun _ => before)

/-- Does something, and puts the descriptors back to what they were before. -/
def keepingDescriptors {α : Type} (act : Act α) : Act α := do
  let before := (← shell).descriptors
  tryFinally act (modifyShell fun s => { s with descriptors := before })

/-- Does something up to the exit of the shell. Gives the status that it ends with. -/
def statusOf (act : Act Unit) : Act Nat := do
  try
    act
    return (← shell).status
  catch
    | .exit status | .finish status => return status
    | .leave _ | .turn _ => return (← shell).status
    | stop => throw stop

/-! ## Streams -/

/-- Adds a stream. -/
def newStream (stream : Stream) : Act Nat := do
  let m ← get
  set { m with streams := m.streams ++ [stream] }
  return m.streams.length

/-- The stream of a descriptor, with its number. -/
def stream? (descriptor : Nat) : Act (Option (Nat × Stream)) := do
  let m ← get
  return do
    let number ← m.shell.descriptors.lookup descriptor
    return (number, ← m.streams[number]?)

/-- Makes a descriptor lead to a stream, or nowhere. -/
def connect (descriptor : Nat) (stream : Option Nat) : Act Unit :=
  modifyShell fun s =>
    let others := s.descriptors.filter fun d => d.1 ≠ descriptor
    { s with descriptors := (stream.map (descriptor, ·)).toList ++ others }

/-- The bytes of a file. -/
def contentAt (files : FileTree) (place : Place) : Octets :=
  match files.entry? place with
  | some (.file content) => Octets.ofSymbols content
  | _ => []

/-- Reads from a descriptor: of the bytes that are left, the part that is wanted. -/
def take (descriptor : Nat) (wanted : Octets → Nat) : Act Octets := do
  match ← stream? descriptor with
  | some (number, .source left endsAt) =>
    let count := wanted left
    modify fun m =>
      { m with
        streams := m.streams.set number (.source (left.drop count) endsAt)
        clock := if left.length ≤ count then max m.clock endsAt else m.clock }
    return left.take count
  | some (number, .file place position appends) =>
    let left := (contentAt (← get).files place).drop position
    let found := left.take (wanted left)
    let stream : Stream := .file place (position + found.length) appends
    modify fun m => { m with streams := m.streams.set number stream }
    return found
  | _ => return []

/-- Reads all that is left of a descriptor. -/
def takeAll (descriptor : Nat) : Act Octets :=
  take descriptor List.length

/-- Bytes with others written over them from a position on. -/
def overwrite (content : Octets) (position : Nat) (more : Octets) : Octets :=
  content.take position ++ List.replicate (position - content.length) '\x00' ++ more ++
    content.drop (position + more.length)

/-- Writes to a descriptor. -/
def write (descriptor : Nat) (bytes : Octets) : Act Unit := do
  match ← stream? descriptor with
  | some (number, .sink output) =>
    modify fun m =>
      { m with streams := m.streams.set number (.sink (output.add m.clock bytes)) }
  | some (number, .file place position appends) =>
    modify fun m =>
      let content := contentAt m.files place
      let start := if appends then content.length else position
      let entry : Entry := .file (Octets.symbols (overwrite content start bytes))
      { m with
        files := m.files.set place entry
        streams := m.streams.set number (.file place (start + bytes.length) appends) }
  | _ => return

/-- Writes a text to a descriptor. -/
def writeText (descriptor : Nat) (text : String) : Act Unit :=
  write descriptor (Octets.ofText text)

/-- Says what went wrong, with the name of the script, the line, and the name of the command that
speaks. -/
def complain (complaint : Octets) : Act Unit := do
  let s ← shell
  let speaker := match s.speaker with
    | some name => name ++ [':', ' ']
    | none => []
  write 2 (s.name ++ Octets.ofText s!": {s.line}: " ++ speaker ++ complaint ++ ['\n'])

/-- Says what went wrong, and ends the shell. -/
def fail {α : Type} (complaint : Octets) : Act α := do
  complain complaint
  throw (.exit 2)

/-- Sets a variable, or removes it. That a variable cannot be set ends the shell. -/
def assign (name : String) (value : Option Octets) : Act Unit := do
  if (← shell).constants.contains name then
    fail (Octets.ofText s!"{name}: is read only")
  else restore name value

/-! ## Files and time -/

/-- A path as seen from the directory of the shell. -/
def locate (path : Octets) : Act String := do
  let s ← shell
  return if path.isEmpty then "" else Path.join s.directory (Octets.text path)

/-- What is at a path. -/
def find (path : Octets) : Act (Except FileError Entry) := do
  let path ← locate path
  return (← get).files.find path

/-- Changes the files, unless that is impossible. -/
def change (operation : FileTree → Except FileError FileTree) : Act (Option FileError) := do
  match operation (← get).files with
  | .ok files =>
    modify fun m => { m with files }
    return none
  | .error e => return some e

/-- Lets time pass. Outputs that descriptors lead to are held meanwhile. -/
def sleep (milliseconds : Nat) : Act Unit :=
  modify fun m =>
    let clock := m.clock + milliseconds
    let held := m.shell.descriptors.map Prod.snd
    let streams := m.streams.zipIdx.map fun (stream, number) => match stream with
      | .sink output =>
        if held.contains number then
          .sink { output with heldUntil := max output.heldUntil clock }
        else stream
      | _ => stream
    { m with clock, streams }

/-- The output that has been written to a stream. -/
def outputAt (m : Machine) (number : Nat) : Output :=
  match m.streams[number]? with
  | some (.sink output) => output
  | _ => .empty

/-- Lets time pass up to a time. -/
def waitUntil (time : Nat) : Act Unit :=
  modify fun m => { m with clock := max m.clock time }

end Act

end CapabilityPipeline.Shell
