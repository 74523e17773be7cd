import CapabilityPipeline.Command.Line
import CapabilityPipeline.Console.Invocation
import CapabilityPipeline.Execution.Engine
import CapabilityPipeline.Execution.LogFile
import CapabilityPipeline.Execution.SettingsFile
import CapabilityPipeline.Program.Parser
import CapabilityPipeline.Registry.Discovery
import CapabilityPipeline.Registry.Installer

/-!
# Tasks of a session

A session answers one invocation. It sees arguments, environment, input and files, and ends with
a status, two outputs and the files as it leaves them. Status 0 is success, 1 a failure, and 2
arguments that cannot be understood. Where a task runs commands, it is told how a command becomes
a driver.

Results:

* `Console.execute`: a program is run and its results are printed.
* `Console.perform`: a task is done.
* `Console.answer`: a session from its surroundings to its end.
-/

namespace CapabilityPipeline.Console

open Json (Value)
open Text (Symbol)

/-- What a session sees when it starts. -/
structure Surroundings where
  arguments : List String
  env : String → Option String
  stdin : List Symbol
  files : FileTree
  /-- The name and the time of a run, if one is started. -/
  runId : String
  time : String

/-- How a session ends. -/
structure Finish where
  status : Nat
  stdout : String
  stderr : String
  files : FileTree

/-- A session that ends early: what failed, and why. -/
structure Failure where
  activity : String
  cause : String
  deriving DecidableEq, Repr

/-- A step of a session that may end it. -/
abbrev Attempt (α : Type) := Except Failure α

/-- Model of `or_exit`: a step that ends the session if it has failed. -/
def attempt {ε α : Type} (activity : String) (message : ε → String) (result : Except ε α) :
    Attempt α :=
  result.mapError fun e => ⟨activity, message e⟩

/-! ## What tasks need -/

/-- A path that stands for the input. -/
def isInput (path : String) : Bool :=
  Path.fileName? path = some "-" && Path.parent? path = some ""

/-- The text of a file or of the input. -/
def readText (s : Surroundings) (path : String) : Attempt String := do
  let activity := if isInput path then "Error reading stdin" else s!"Error reading {path}"
  let content ← if isInput path then pure s.stdin
    else attempt activity FileError.message (s.files.read path)
  match Symbol.text? content with
  | some text => return text
  | none => throw ⟨activity, "stream did not contain valid UTF-8"⟩

/-- Model of `read_program`: the program of a file or of the input. -/
def readProgram (s : Surroundings) (path : String) : Attempt Program := do
  attempt "Syntax error" SyntaxError.message (Program.parse (← readText s path))

/-- Model of `open_registry`: the registry. -/
def openRegistry (s : Surroundings) (i : Invocation) : Attempt Registry :=
  attempt "Error loading registry" StoreError.message
    (Registry.openStore ⟨i.registryDir⟩ i.packagesDir s.files)

/-- Model of `load_config`. The settings: those of a file or the defaults, as the environment
overrides them. -/
def loadSettings (s : Surroundings) (i : Invocation) : Attempt Settings := do
  let base ← match i.settings with
    | some path =>
      attempt "Error loading config" SettingsError.message (Settings.load s.files path)
    | none => pure Settings.default
  match base.override s.env with
  | (settings, none) => return settings
  | (_, some e) => throw ⟨"Error in environment", e.message⟩

/-! ## Drivers -/

/-- Drivers that answer with the request, for all nodes and packages. -/
def echoDrivers (snapshot : Snapshot) : DriverTable FileTree :=
  let nodes := (snapshot.list true).foldl
    (fun (t : DriverTable FileTree) n => t.register (.node n.id) Driver.echo) .empty
  snapshot.packages.keys.foldl (fun t id => t.register (.package id) Driver.echo) nodes

/-- Model of `parse_driver_spec`: the node and the command that a text names, with an equals sign
between them. -/
def driverOfText (text : String) : Except String (String × CommandLine) :=
  let cs := text.toList
  match cs.dropWhile (· ≠ '=') with
  | [] => .error s!"expected NODE=COMMAND, got '{text}'"
  | _ :: command =>
    let node := String.ofList (cs.takeWhile (· ≠ '='))
    match CommandLine.ofText? (String.ofList command) with
    | some line => .ok (Text.trimmed node, line)
    | none => .error s!"empty command for node '{node}'"

/-- The command of a package, from its manifest. -/
def packageCommand? (r : Registry) (files : FileTree) (packageId : String) :
    Option CommandLine := do
  let manifest ← (r.readManifest files packageId).toOption
  CommandLine.ofText? (← manifest.command)

/-- How commands become drivers in a directory. -/
abbrev Commands := CommandLine → (dir : String) → Driver FileTree

/-- Commands as drivers: those given for nodes, and those of packages in their directories. -/
def commandDrivers (commands : Commands) (r : Registry) (files : FileTree) (given : List String) :
    Attempt (DriverTable FileTree) := do
  let nodes ← given.foldlM (fun (t : DriverTable FileTree) text => do
    let (node, line) ← attempt "invalid --driver" id (driverOfText text)
    return t.register (.node node) (commands line "")) .empty
  return r.snapshot.packages.keys.foldl (fun t id =>
    match packageCommand? r files id with
    | some line => t.register (.package id) (commands line (Path.join r.packagesDir id))
    | none => t) nodes

/-! ## Tasks -/

/-- A session that ends well with a text. -/
def printed (s : Surroundings) (text : String) : Finish :=
  ⟨0, text ++ "\n", "", s.files⟩

/-- Model of `execute`: runs a program, writes the log if wanted, and prints the results. -/
def execute (s : Surroundings) (engine : Engine FileTree) (program : Program)
    (context : Context) (log : Option String) : Attempt Finish := do
  let (run, files) := engine.run program context s.time s.files
  let files ← match log with
    | some path =>
      attempt "Error writing execution log" FileError.message (run.log.save path files)
    | none => pure files
  let results : Value := .ofList Envelope.toValue run.results
  return ⟨if run.success then 0 else 1, results.pretty ++ "\n", "", files⟩

/-- Does a task. -/
def perform (commands : Commands) (s : Surroundings) (i : Invocation) : Attempt Finish := do
  match i.task with
  | .parse path json =>
    let program ← readProgram s path
    return printed s (if json then program.toValue.pretty else program.render)
  | .dryRun path log =>
    let program ← readProgram s path
    let registry ← openRegistry s i
    let engine := ⟨registry.snapshot, echoDrivers registry.snapshot, ← loadSettings s i⟩
    execute s engine program (.ofRun s.runId) log
  | .run path drivers agent log =>
    let program ← readProgram s path
    let registry ← openRegistry s i
    let table ← commandDrivers commands registry s.files drivers
    let engine := ⟨registry.snapshot, table, ← loadSettings s i⟩
    execute s engine program { Context.ofRun s.runId with agentId := agent } log
  | .nodes agents =>
    let registry ← openRegistry s i
    let nodes : Value := .ofList Node.toValue (registry.snapshot.list agents)
    return printed s nodes.pretty
  | .discover query limit =>
    let registry ← openRegistry s i
    let found : Value := .ofList NodeMatch.toValue (registry.snapshot.discover query limit)
    return printed s found.pretty
  | .register packageId =>
    let registry ← openRegistry s i
    match registry.register packageId s.files with
    | (_, files, .ok report) => return ⟨0, report.toValue.pretty ++ "\n", "", files⟩
    | (_, files, .error e) =>
      return ⟨1, "", s!"Registration failed: {e.message}\n", files⟩
  | .unregister packageId =>
    let registry ← openRegistry s i
    match registry.unregister packageId s.files with
    | (_, files, .ok report) => return ⟨0, report.toValue.pretty ++ "\n", "", files⟩
    | (_, files, .error e) =>
      return ⟨1, "", s!"Unregistration failed: {e.message}\n", files⟩

/-- Model of `main`: answers an invocation. -/
def answer (commands : Commands) (s : Surroundings) : Finish :=
  match Invocation.read s.arguments s.env with
  | .error e => ⟨2, "", s!"error: {e.message}\n\n{usage}", s.files⟩
  | .ok .help => ⟨0, usage, "", s.files⟩
  | .ok (.invocation i) =>
    match perform commands s i with
    | .ok finish => finish
    | .error e => ⟨1, "", s!"{e.activity}: {e.cause}\n", s.files⟩

end CapabilityPipeline.Console
