import CapabilityPipeline.Console.Arguments
import CapabilityPipeline.Execution.Settings

/-!
# Invocations

An invocation says where the registry, the packages and the settings are, and what is to be
done. What the arguments leave open comes from the environment, and else has a default.

Results:

* `Invocation.read`: the invocation that arguments and environment make.
-/

namespace CapabilityPipeline.Console

/-- Model of `Command`: what is to be done. -/
inductive Task where
  /-- Print a program, canonically or as JSON. -/
  | parse (program : String) (json : Bool)
  /-- Run a program with drivers that answer with the request. -/
  | dryRun (program : String) (log : Option String)
  /-- Run a program with commands as drivers. -/
  | run (program : String) (drivers : List String) (agent log : Option String)
  | nodes (agents : Bool)
  | discover (query : String) (limit : Nat)
  | register (packageId : String)
  | unregister (packageId : String)
  deriving DecidableEq, Repr

/-- The path of the program that is read. -/
def Task.program? : Task → Option String
  | parse program _ => some program
  | dryRun program _ => some program
  | run program _ _ _ => some program
  | _ => none

/-- The path of the log that is written. -/
def Task.log? : Task → Option String
  | dryRun _ log => log
  | run _ _ _ log => log
  | _ => none

/-- Model of `Args`: what is to be done, and where. -/
structure Invocation where
  registryDir : String
  packagesDir : String
  settings : Option String
  task : Task
  deriving DecidableEq, Repr

/-- What arguments ask for. -/
inductive Asked where
  | help
  | invocation (i : Invocation)
  deriving DecidableEq, Repr

/-- Options before the command. -/
def generalGrammar : Grammar :=
  ⟨[], [("registry-dir", .path), ("packages-dir", .path), ("config", .path)], [], []⟩

/-- Arguments of each command. -/
def grammars : List (String × Grammar) := [
  ("parse", ⟨["json"], [], [], [("FILE", .path)]⟩),
  ("dry-run", ⟨[], [("execution-log", .path)], [], [("FILE", .path)]⟩),
  ("run", ⟨[], [("driver", .text), ("agent", .text), ("execution-log", .path)], ["driver"],
    [("FILE", .path)]⟩),
  ("nodes", ⟨["agents"], [], [], []⟩),
  ("discover", ⟨[], [("limit", .count)], [], [("QUERY", .text)]⟩),
  ("register", ⟨[], [], [], [("PACKAGE_ID", .text)]⟩),
  ("unregister", ⟨[], [], [], [("PACKAGE_ID", .text)]⟩)]

/-- How many nodes are listed unless a number is given. -/
def defaultLimit : Nat := 5

/-- What a command with its arguments is to do. -/
def Task.ofArguments (command : String) (a : Arguments) : Except UsageError Task :=
  let first := a.positional 0
  let log := a.value? "execution-log"
  match command with
  | "parse" => .ok (.parse first (a.has "json"))
  | "dry-run" => .ok (.dryRun first log)
  | "run" => .ok (.run first (a.allValues "driver") (a.value? "agent") log)
  | "nodes" => .ok (.nodes (a.has "agents"))
  | "discover" =>
    let limit := (a.value? "limit").bind fun text => natOfDigits? wordLimit64 text.toList
    .ok (.discover first (limit.getD defaultLimit))
  | "register" => .ok (.register first)
  | "unregister" => .ok (.unregister first)
  | _ => .error (.unknownCommand command)

/-- A path that an option gives, or an environment variable, or a default. -/
def setting (general : Arguments) (env : String → Option String)
    (option name default : String) : Except UsageError String :=
  match general.value? option, env name with
  | some path, _ => .ok path
  | none, some path =>
    if ValueKind.path.admits path then .ok path else .error (.invalidValue option path)
  | none, none => .ok default

/-- What a request for help comes to: it may name one command, which has no commands of its own. -/
def helpOn : List String → UsageError
  | [] => .helpWanted
  | command :: rest =>
    if command ≠ "help" ∧ (grammars.lookup command).isNone then .unknownCommand command
    else match rest with
      | [] => .helpWanted
      | inner :: _ => .unknownCommand inner

/-- The invocation that arguments make in an environment. -/
def Invocation.ofArguments (arguments : List String) (env : String → Option String) :
    Except UsageError Invocation := do
  let (general, rest) ← Arguments.readUpTo generalGrammar arguments
  match rest with
  | [] => throw .missingCommand
  | "help" :: rest => throw (helpOn rest)
  | command :: rest =>
    match grammars.lookup command with
    | none => throw (.unknownCommand command)
    | some grammar =>
      let task ← Task.ofArguments command (← Arguments.read grammar rest)
      return {
        registryDir := ← setting general env "registry-dir" "IBL_REGISTRY_DIR" ".ibl"
        packagesDir := ← setting general env "packages-dir" "IBL_PACKAGES_DIR" "packages"
        settings := general.value? "config"
        task }

/-- What arguments ask for in an environment. -/
def Invocation.read (arguments : List String) (env : String → Option String) :
    Except UsageError Asked :=
  match ofArguments arguments env with
  | .ok i => .ok (.invocation i)
  | .error .helpWanted => .ok .help
  | .error e => .error e

/-- Environment variables that a session looks at. -/
def environmentNames : List String :=
  ["IBL_REGISTRY_DIR", "IBL_PACKAGES_DIR", Settings.failureVariable, Settings.parallelVariable,
    Settings.timeoutVariable]

/-- Paths that a session may read or write at or below. Words of commands may be paths too. -/
def Invocation.paths (i : Invocation) : List String :=
  let words := match i.task with
    | .run _ drivers _ _ => drivers.flatMap fun driver =>
      (Text.words (driver.toList.map fun c => if c = '=' then ' ' else c)).map String.ofList
    | _ => []
  [i.registryDir, i.packagesDir] ++ i.settings.toList ++ i.task.program?.toList ++
    i.task.log?.toList ++ words

/-- How the program is used. -/
def usage : String :=
  "Usage: ibl [--registry-dir DIR] [--packages-dir DIR] [--config FILE] COMMAND\n" ++
  "\n" ++
  "  parse FILE [--json]\n" ++
  "  dry-run FILE [--execution-log FILE]\n" ++
  "  run FILE [--driver NODE=COMMAND]... [--agent AGENT] [--execution-log FILE]\n" ++
  "  nodes [--agents]\n" ++
  "  discover QUERY [--limit LIMIT]\n" ++
  "  register PACKAGE_ID\n" ++
  "  unregister PACKAGE_ID\n" ++
  "\n" ++
  "A FILE of - is the input. The directories may also be given by IBL_REGISTRY_DIR and\n" ++
  "IBL_PACKAGES_DIR; IBL_FAILURE_POLICY, IBL_PARALLEL_SUCCESS and IBL_DRIVER_TIMEOUT_MS\n" ++
  "override the settings.\n"

end CapabilityPipeline.Console
