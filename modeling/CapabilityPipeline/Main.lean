import CapabilityPipeline.Console.Session
import CapabilityPipeline.Execution.RunId
import Std.Time.Format

/-!
# The program

Runs a session on the files of the system: those that the session may look at are read into a
tree first, and what it has changed is written back at the end.
-/

namespace CapabilityPipeline.Console

open Text (Symbol)

/-- The path of a place. -/
def pathOfPlace (place : Place) : String :=
  "/" ++ "/".intercalate place

/-- The place of an absolute path. -/
def placeOfPath (path : String) : Place :=
  (Path.components path).filter (· ≠ "")

/-- The tree with what is at a place and, if wanted, below it. What cannot be read is left
out. -/
partial def loadAt (below : Bool) (place : Place) (files : FileTree) : IO FileTree := do
  try
    let path ← IO.FS.realPath (pathOfPlace place)
    if ← path.isDir then
      let mut files := files.set place .directory
      if below then
        for entry in ← path.readDir do
          files ← loadAt true (place ++ [entry.fileName]) files
      return files
    else
      let bytes ← IO.FS.readBinFile path
      return files.set place (.file (Symbol.decode bytes.toList))
  catch _ => return files

/-- The tree with what is at a path and below it, and the directories on the way. -/
def loadPath (files : FileTree) (path : String) : IO FileTree := do
  let names := Path.components path
  let mut files := files
  for n in List.range names.length do
    let above := "/".intercalate (names.take (n + 1))
    if let .ok place := files.locate above then
      files ← loadAt (n + 1 = names.length) place files
  return files

/-- Writes what has been changed in a tree, and removes what has gone. -/
def writeBack (before after : FileTree) : IO Unit := do
  for (place, entry) in after.entries.reverse do
    if before.entry? place ≠ some entry then
      match entry with
      | .directory => IO.FS.createDirAll (pathOfPlace place)
      | .file content =>
        IO.FS.writeBinFile (pathOfPlace place) ⟨(Symbol.encode content).toArray⟩
  for (place, entry) in before.entries do
    if after.entry? place = none then
      match entry with
      | .directory => IO.FS.removeDirAll (pathOfPlace place)
      | .file _ => IO.FS.removeFile (pathOfPlace place)

/-- All of a stream, after what has been read of it. -/
partial def readAll (stream : IO.FS.Stream) (found : ByteArray) : IO ByteArray := do
  let more ← stream.read 65536
  if more.isEmpty then return found else readAll stream (found ++ more)

/-- The time in words. -/
def currentTime : IO String := do
  let now ← Std.Time.Timestamp.now
  return (Std.Time.DateTime.ofTimestamp now Std.Time.TimeZone.ZoneRules.UTC).toISO8601String

/-- A random number of 128 bits. -/
def randomNumber : IO Nat := do
  let bytes ← IO.getRandomBytes 16
  return bytes.toList.foldl (fun n b => n * 256 + b.toNat) 0

/-- What a session with some arguments sees. -/
def surroundings (arguments : List String) : IO Surroundings := do
  let found ← environmentNames.filterMapM fun name => return (← IO.getEnv name).map (name, ·)
  let env (name : String) : Option String := found.lookup name
  let start := placeOfPath (← IO.currentDir).toString
  let mut files := FileTree.empty start
  let mut stdin := []
  if let .ok (.invocation i) := Invocation.read arguments env then
    for path in i.paths do
      files ← loadPath files path
    if i.task.program?.any isInput then
      stdin := Symbol.decode (← readAll (← IO.getStdin) .empty).toList
  let runId := runIdOfNumber (← randomNumber)
  return ⟨arguments, env, stdin, files, runId, ← currentTime⟩

end CapabilityPipeline.Console

open CapabilityPipeline.Console in
/-- Runs a session with the arguments of the program. -/
def main (arguments : List String) : IO UInt32 := do
  let start ← surroundings arguments
  let finish := run start
  writeBack start.files finish.files
  (← IO.getStdout).putStr finish.stdout
  (← IO.getStderr).putStr finish.stderr
  return UInt32.ofNat finish.status
