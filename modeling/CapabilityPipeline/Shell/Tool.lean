import CapabilityPipeline.Shell.Arithmetic
import CapabilityPipeline.Shell.Machine
import CapabilityPipeline.Shell.Printing

/-!
# Tools

Small programs that a shell starts by name: they copy, count and cut what they read, and look at
files, make them and remove them. Each ends with a status.

Results:

* `Tool.named?`: the tool of a name.
-/

namespace CapabilityPipeline.Shell

open Text (Octets)

/-- A program that is started with arguments and ends with a status. -/
abbrev Tool := List Octets → Act Nat

namespace Tool

/-! ## Arguments and input -/

/-- Says what went wrong, in the name of a tool. -/
def complain (name complaint : String) : Act Unit :=
  Act.writeText 2 s!"{name}: {complaint}\n"

/-- Says how a tool is not used. -/
def misused (name complaint : String) : Act Nat := do
  complain name s!"{complaint}\nTry '{name} --help' for more information."
  return 1

/-- An argument is an option. -/
def isOption (argument : Octets) : Bool :=
  argument.head? = some '-' && argument ≠ ['-']

/-- The letters of the options, and the other arguments. Everything after two dashes is no
option. -/
def letters (arguments : List Octets) : Octets × List Octets :=
  let before := arguments.takeWhile (· ≠ ['-', '-'])
  let after := (arguments.drop before.length).tail
  ((before.filter isOption).flatMap List.tail, before.filter (!isOption ·) ++ after)

/-- An absolute path, without what adds nothing to it. -/
def deviceOf (path : Octets) : String :=
  let names := (Path.components (Octets.text path)).filter fun name => name ≠ "" && name ≠ "."
  if path.head? = some '/' then "/" ++ "/".intercalate names else ""

/-- The bytes at a path, or why there are none. A dash is the input. -/
def content (path : Octets) : Act (Except FileError Octets) := do
  let device := deviceOf path
  if path = ['-'] ∨ device = "/dev/stdin" ∨ device = "/dev/fd/0" then
    if let some (_, .directory) ← Act.stream? 0 then return .error .isADirectory
    return .ok (← Act.takeAll 0)
  if device = "/dev/null" then return .ok []
  match ← Act.find path with
  | .ok (.file content) => return .ok (Octets.ofSymbols content)
  | .ok .directory => return .error .isADirectory
  | .error e => return .error e

/-- Does something with the bytes at each path, or with the input if there is no path. What cannot
be read is complained about. -/
def eachContent (name : String) (paths : List Octets) (complaint : Octets → FileError → String)
    (act : Octets → Octets → Act Unit) : Act Nat := do
  let mut status := 0
  for path in (if paths.isEmpty then [['-']] else paths) do
    match ← content path with
    | .ok bytes => act path bytes
    | .error e =>
      complain name (complaint path e)
      status := 1
  return status

/-- A character that means something to a shell. -/
def isSpecial (c : Char) : Bool :=
  [' ', '!', '"', '$', '&', '\'', '(', ')', '*', ';', '<', '=', '>', '[', '^', '`', '|', '?',
    '\\'].contains c

/-- A name between quotes. Single quotes are used, and double ones around a name that holds single
ones and nothing that double ones would not keep. -/
def quoted (name : Octets) : Octets :=
  let keeps (c : Char) : Bool :=
    c = ' ' || c = '\'' || !(isSpecial c || ['#', '~', '\x7b', '\x7d'].contains c)
  if !name.contains '\'' then ['\''] ++ name ++ ['\'']
  else if name.all keeps then ['"'] ++ name ++ ['"']
  else
    let escaped := name.flatMap fun c => if c = '\'' then ['\'', '\\', '\'', '\''] else [c]
    ['\''] ++ escaped ++ ['\'']

/-- A name, between quotes if it would mean something else to a shell. -/
def quotedIfNeeded (name : Octets) : Octets :=
  let isLone := [['\x7b'], ['\x7d']].contains name
  if name.isEmpty || isLone || name.any isSpecial || ['#', '~'].contains (name.headD ' ') then
    quoted name
  else name

/-- A path and the reason why it cannot be used. -/
def pathAndReason (path : Octets) (e : FileError) : String :=
  s!"{Octets.text (quotedIfNeeded path)}: {e.reason}"

/-- That a file cannot be opened for reading, or read. -/
def notReadable (path : Octets) (e : FileError) : String :=
  let name := if path = ['-'] then "'standard input'" else Octets.text (quoted path)
  if e = .isADirectory then s!"error reading {name}: {e.reason}"
  else s!"cannot open {name} for reading: {e.reason}"

/-- The lines of bytes, with the line ends that they have. The number bounds the lines. -/
def linesWithin : (bound : Nat) → Octets → List Octets
  | 0, _ => []
  | _, [] => []
  | bound + 1, cs =>
    let line := cs.takeWhile (· ≠ '\n')
    (line ++ (cs.drop line.length).take 1) :: linesWithin bound (cs.drop (line.length + 1))

/-- The lines of bytes, with the line ends that they have. -/
def lines (cs : Octets) : List Octets :=
  linesWithin (cs.length + 1) cs

/-! ## Copying -/

/-- Copies files, or its input. -/
def cat : Tool := fun arguments => do
  let (given, paths) := letters arguments
  match given.find? fun c => c ≠ 'u' with
  | some c => misused "cat" s!"invalid option -- '{c}'"
  | none => eachContent "cat" paths pathAndReason fun _ bytes => Act.write 1 bytes

/-- Copies its input to its output and to files. -/
def tee : Tool := fun arguments => do
  let (given, paths) := letters arguments
  let bytes ← Act.takeAll 0
  Act.write 1 bytes
  let mut status := 0
  for path in paths do
    let place ← Act.locate path
    let before ← content path
    let kept := if given.contains 'a' then before.toOption.getD [] else []
    match ← Act.change fun files => files.write place (Octets.symbols (kept ++ bytes)) with
    | none => pure ()
    | some e =>
      complain "tee" (pathAndReason path e)
      status := 1
  return status

/-- How much of the input a tool takes: a count of lines or of bytes, with its sign, and where
from. -/
structure Portion where
  bytes : Bool
  sign : Option Char
  count : Nat
  paths : List Octets

namespace Portion

/-- The portion with another count. -/
def counted (p : Portion) (bytes : Bool) (text : Octets) : Except String Portion :=
  let sign := text.head?.filter fun c => c = '-' || c = '+'
  let digits := if sign.isSome then text.tail else text
  let unit := if bytes then "bytes" else "lines"
  if digits.isEmpty ∨ !digits.all Char.isDigit then
    .error s!"invalid number of {unit}: '{Octets.text text}'"
  else .ok { p with bytes, sign, count := ofDigits 10 digits }

/-- The portion that arguments ask for. -/
def ofArguments (p : Portion) : List Octets → Except String Portion
  | ['-', 'n'] :: count :: rest => do ofArguments (← p.counted false count) rest
  | ['-', 'c'] :: count :: rest => do ofArguments (← p.counted true count) rest
  | ('-' :: 'n' :: count) :: rest => do ofArguments (← p.counted false count) rest
  | ('-' :: 'c' :: count) :: rest => do ofArguments (← p.counted true count) rest
  | ('-' :: c :: count) :: rest => do ofArguments (← p.counted false (c :: count)) rest
  | path :: rest => ofArguments { p with paths := p.paths ++ [path] } rest
  | [] => .ok p

/-- How many of some items are before the end of the first part: all but a count at the end if the
count has a minus. -/
def fromStart (p : Portion) (size : Nat) : Nat :=
  if p.sign = some '-' then size - p.count else p.count

/-- How many of some items are before the last part: all before a place if the count has a
plus. -/
def beforeEnd (p : Portion) (size : Nat) : Nat :=
  if p.sign = some '+' then p.count - 1 else size - p.count

end Portion

/-- A tool that copies a part of what it reads. -/
def excerpt (name : String) (part : {α : Type} → Portion → List α → List α) : Tool :=
  fun arguments => do
    match Portion.ofArguments ⟨false, none, 10, []⟩ arguments with
    | .error complaint =>
      complain name complaint
      return 1
    | .ok p => eachContent name p.paths notReadable fun _ bytes =>
      Act.write 1 (if p.bytes then part p bytes else (part p (lines bytes)).flatten)

/-- Copies the first lines or bytes. -/
def head : Tool :=
  excerpt "head" fun p items => items.take (p.fromStart items.length)

/-- Copies the last lines or bytes. -/
def tail : Tool :=
  excerpt "tail" fun p items => items.drop (p.beforeEnd items.length)

/-! ## Counting and ordering -/

/-- The number of words of bytes. -/
def wordCount (cs : Octets) : Nat :=
  let starts := cs.zip (' ' :: cs)
  (starts.filter fun (c, before) => !isSpace c && isSpace before).length

/-- Counts lines, words and bytes, and adds up the counts of several files. Columns are as wide
as the number of all bytes, but wider where the input is counted. -/
def wc : Tool := fun arguments => do
  let (given, paths) := letters arguments
  let mut status := 0
  let mut found : List (Octets × Octets) := []
  for path in (if paths.isEmpty then [['-']] else paths) do
    match ← content path with
    | .ok bytes => found := found ++ [(path, bytes)]
    | .error e =>
      complain "wc" (pathAndReason path e)
      status := 1
  let wanted := if given.isEmpty then ['l', 'w', 'c'] else given
  let counts (bytes : Octets) : List Nat :=
    [('l', bytes.count '\n'), ('w', wordCount bytes), ('c', bytes.length)].filterMap
      fun (c, n) => if wanted.contains c then some n else none
  let rows : List (List Nat × Octets) := found.map fun (path, bytes) => (counts bytes, path)
  let all := found.flatMap Prod.snd
  let sums : List Nat := rows.foldl (fun sums row => List.zipWith (· + ·) sums row.1) (counts [])
  let rows := if paths.length > 1 then rows ++ [(sums, "total".toList)] else rows
  let isSingle := sums.length = 1 ∧ paths.length ≤ 1
  let width :=
    if isSingle then 1 else if found.any (·.1 = ['-']) then 7 else (digitsOf 10 all.length).length
  for (numbers, name) in rows do
    let columns := numbers.map fun n =>
      let digits := digitsOf 10 n
      List.replicate (width - digits.length) ' ' ++ digits
    Act.write 1 (joined (columns ++ (if paths.isEmpty then [] else [name])) ++ ['\n'])
  return status

/-- Orders lines. -/
def sort : Tool := fun arguments => do
  let (given, paths) := letters arguments
  let bytes ← (if paths.isEmpty then [['-']] else paths).mapM fun path => do
    return (← content path).toOption.getD []
  let key (line : Octets) : Int := (integerAt (some 10) line).elim 0 Prod.fst
  let first (a b : Octets) : Bool :=
    if given.contains 'n' && key a ≠ key b then decide (key a < key b) else !decide (b < a)
  let plain := (bytes.flatMap lines).map fun line => line.filter (· ≠ '\n')
  let sorted := plain.mergeSort first
  let sorted := if given.contains 'r' then sorted.reverse else sorted
  let kept := if given.contains 'u' then sorted.eraseReps else sorted
  Act.write 1 (kept.flatMap fun line => line ++ ['\n'])
  return 0

/-- Prints numbers in a row. -/
def seq : Tool := fun arguments => do
  if let some wrong := arguments.find? fun argument => (numberOf? argument).isNone then
    misused "seq" s!"invalid floating point argument: '{Octets.text wrong}'"
  else
    let numbers := arguments.filterMap numberOf?
    let (first, step, last) : Int × Int × Int := match numbers with
      | [last] => (1, 1, last)
      | [first, last] => (first, 1, last)
      | [first, step, last] => (first, step, last)
      | _ => (1, 1, 0)
    if step = 0 then misused "seq" "invalid Zero increment value: '0'"
    else
      let count := ((last - first) / step + 1).toNat
      let row := (List.range count).map fun (n : Nat) => textOfInt (first + step * Int.ofNat n)
      Act.write 1 (row.flatMap fun n => n ++ ['\n'])
      return 0

/-! ## Replacing characters -/

/-- The characters that a set stands for: single ones, ranges and escapes. -/
def members : Octets → Octets
  | '\\' :: c :: rest => (escapeAt (c :: rest)).1 :: members rest
  | a :: '-' :: b :: rest =>
    ((List.range (b.toNat - a.toNat + 1)).map fun n => Char.ofNat (a.toNat + n)) ++ members rest
  | c :: rest => c :: members rest
  | [] => []

/-- The characters that a set or the name of a kind stands for. -/
def membersOf (set : Octets) : Octets :=
  match String.ofList set with
  | "[:lower:]" => members "a-z".toList
  | "[:upper:]" => members "A-Z".toList
  | "[:digit:]" => members "0-9".toList
  | "[:alpha:]" => members "A-Za-z".toList
  | "[:alnum:]" => members "0-9A-Za-z".toList
  | "[:space:]" => [' ', '\t', '\n', '\x0b', '\x0c', '\r']
  | _ => members set

/-- A text in which runs of one character of a set are single. -/
def squeeze (set : Octets) : Octets → Octets
  | a :: b :: rest =>
    if a = b ∧ set.contains a then squeeze set (b :: rest) else a :: squeeze set (b :: rest)
  | cs => cs

/-- Replaces, deletes or squeezes characters of its input. -/
def tr : Tool := fun arguments => do
  let (given, sets) := letters arguments
  let bytes ← Act.takeAll 0
  let sets := sets.map membersOf
  let first := sets.headD []
  let inFirst (c : Char) : Bool := first.contains c != given.contains 'c'
  match sets with
  | [] => misused "tr" "missing operand"
  | [_] =>
    if given.contains 'd' then Act.write 1 (bytes.filter fun c => !inFirst c)
    else Act.write 1 (squeeze first bytes)
    return 0
  | _ :: second :: _ =>
    let last := second.getLast?.getD ' '
    let replaced := bytes.map fun c =>
      if !inFirst c then c
      else if given.contains 'c' then last
      else second[first.idxOf c]?.getD last
    Act.write 1 (if given.contains 's' then squeeze second replaced else replaced)
    return 0

/-! ## Files -/

/-- Names that lead to files: what is at a path is changed, or the failure is told. -/
def eachPath (name : String) (paths : List Octets) (doing : String)
    (operation : String → FileTree → Except FileError FileTree) : Act Nat := do
  let mut status := 0
  for path in paths do
    let place ← Act.locate path
    if let some e ← Act.change (operation place) then
      complain name s!"{doing} '{Octets.text path}': {e.reason}"
      status := 1
  return status

/-- Makes directories. -/
def mkdir : Tool := fun arguments => do
  let (given, paths) := letters arguments
  if paths.isEmpty then misused "mkdir" "missing operand"
  else eachPath "mkdir" paths "cannot create directory" fun path files =>
    if given.contains 'p' then files.createDirectories path else files.createDirectory path

/-- Makes empty files where nothing is. -/
def touch : Tool := fun arguments => do
  let (_, paths) := letters arguments
  if paths.isEmpty then misused "touch" "missing file operand"
  else eachPath "touch" paths "cannot touch" fun path files =>
    if files.pathExists path then .ok files else files.write path []

/-- Removes files, and directories if they are asked for. -/
def rm : Tool := fun arguments => do
  let (given, paths) := letters arguments
  let recursive := given.contains 'r' || given.contains 'R'
  if paths.isEmpty then if given.contains 'f' then return 0 else misused "rm" "missing operand"
  else eachPath "rm" paths "cannot remove" fun path files =>
    match files.find path with
    | .error e => if given.contains 'f' && e = .notFound then .ok files else .error e
    | .ok entry =>
      if entry = .directory && !recursive then .error .isADirectory
      else .ok ((files.remove path).getD files)

/-- The path of a source within a target, which may be a directory. -/
def pathWithin (source target : String) : Act String := do
  let files := (← get).files
  if files.isDirectory target then return Path.join target ((Path.fileName? source).getD "")
  return target

/-- Copies or moves one file to another path. -/
def transfer (name : String)
    (operation : String → String → FileTree → Except FileError FileTree) : Tool :=
  fun arguments => do
    match (letters arguments).2 with
    | [source, target] =>
      let start ← Act.locate source
      let goal ← pathWithin start (← Act.locate target)
      match ← Act.change (operation start goal) with
      | none => return 0
      | some e =>
        complain name s!"cannot stat '{Octets.text source}': {e.reason}"
        return 1
    | _ => misused name "missing file operand"

/-- Lists paths of files, and then the names in directories. -/
def ls : Tool := fun arguments => do
  let (given, paths) := letters arguments
  let paths := if paths.isEmpty then [['.']] else paths
  let mut status := 0
  let mut directories : List (Octets × List String) := []
  let mut files : List Octets := []
  for path in paths do
    let place ← Act.locate path
    let tree := (← get).files
    match tree.find place with
    | .ok (.file _) => files := files ++ [path]
    | .ok .directory =>
      let names := (tree.below place).filterMap fun (names, _) => match names with
        | [name] => some name
        | _ => none
      directories := directories ++ [(path, names)]
    | .error e =>
      complain "ls" s!"cannot access {Octets.text (quoted path)}: {e.reason}"
      status := 2
  for path in files do
    Act.write 1 (path ++ ['\n'])
  let mut isFirst := files.isEmpty
  for (path, names) in directories do
    if paths.length > 1 then
      Act.write 1 ((if isFirst then [] else ['\n']) ++ path ++ [':', '\n'])
    isFirst := false
    let names := if given.contains 'a' then "." :: ".." :: names
      else names.filter fun name => name.toList.head? ≠ some '.'
    for name in names.mergeSort do
      Act.writeText 1 s!"{name}\n"
  return status

/-! ## Names and time -/

/-- Prints the last name of a path. -/
def basename : Tool := fun arguments => do
  match arguments with
  | [] => misused "basename" "missing operand"
  | path :: rest =>
    let name := Octets.ofText ((Path.fileName? (Octets.text path)).getD (Octets.text path))
    let suffix := rest.headD []
    let cut := suffix.isSuffixOf name && suffix ≠ name
    Act.write 1 ((if cut then name.take (name.length - suffix.length) else name) ++ ['\n'])
    return 0

/-- Prints paths without their last names. -/
def dirname : Tool := fun arguments => do
  if arguments.isEmpty then misused "dirname" "missing operand"
  else
    for path in arguments do
      let parent := (Path.parent? (Octets.text path)).getD "/"
      Act.writeText 1 ((if parent = "" then "." else parent) ++ "\n")
    return 0

/-- How many milliseconds a text asks to wait: a decimal number, and a unit. -/
def duration? (text : Octets) : Option Nat :=
  let whole := digitsAt 10 text
  let rest := text.drop whole.length
  let fraction := if rest.head? = some '.' then digitsAt 10 rest.tail else []
  let rest := if rest.head? = some '.' then rest.drop (fraction.length + 1) else rest
  let unit? : Option Nat := match rest with
    | [] | ['s'] => some 1
    | ['m'] => some 60
    | ['h'] => some 3600
    | ['d'] => some 86400
    | _ => none
  if whole.isEmpty ∧ fraction.isEmpty then none
  else
    let thousandths := ofDigits 10 (whole ++ (fraction ++ ['0', '0', '0']).take 3)
    unit?.map (thousandths * ·)

/-- Waits. -/
def sleep : Tool := fun arguments => do
  if arguments.isEmpty then return (← misused "sleep" "missing operand")
  if let some (_ :: c :: _) := arguments.find? isOption then
    return (← misused "sleep" s!"invalid option -- '{c}'")
  for argument in arguments do
    if ["inf", "infinity"].contains (Octets.text argument) then throw .never
    match duration? argument with
    | some milliseconds => Act.sleep milliseconds
    | none => return (← misused "sleep" s!"invalid time interval '{Octets.text argument}'")
  return 0

/-! ## Printing -/

/-- Prints its arguments. Backslashes mean something only if that is asked for. -/
def echo : Tool := fun arguments => do
  let isFlag (argument : Octets) : Bool :=
    isOption argument && argument.tail.all fun c => ['n', 'e', 'E'].contains c
  let flags := (arguments.takeWhile isFlag).flatten
  let text := joined (arguments.dropWhile isFlag)
  let (text, ended) := if flags.contains 'e' then unescape text else (text, false)
  Act.write 1 (if ended || flags.contains 'n' then text else text ++ ['\n'])
  return 0

/-- Prints a format filled with arguments. -/
def printf : Tool := fun arguments => do
  match if arguments.head? = some ['-', '-'] then arguments.tail else arguments with
  | [] => misused "printf" "missing operand"
  | format :: rest =>
    let p := Shell.printed format rest
    Act.write 1 p.text
    for fault in p.faults do
      complain "printf" (match fault with
        | .noNumber argument => s!"'{Octets.text argument}': expected a numeric value"
        | .partly argument => s!"'{Octets.text argument}': value not completely converted")
    if let some directive := p.broken then
      complain "printf" s!"{Octets.text directive}: invalid conversion specification"
    return if p.faults.isEmpty ∧ p.broken.isNone then 0 else 1

/-- Prints the path of the directory. -/
def pwd : Tool := fun _ => do
  let files := (← get).files
  match files.locate (← Act.locate ['.']) with
  | .ok place => Act.writeText 1 ("/" ++ "/".intercalate place ++ "\n")
  | .error _ => pure ()
  return 0

/-- The tool of a name. -/
def named? (name : String) : Option Tool :=
  match name with
  | "cat" => some cat
  | "tee" => some tee
  | "head" => some head
  | "tail" => some tail
  | "wc" => some wc
  | "sort" => some sort
  | "seq" => some seq
  | "tr" => some tr
  | "mkdir" => some mkdir
  | "touch" => some touch
  | "rm" => some rm
  | "cp" => some (transfer "cp" fun source target files => files.copy source target)
  | "mv" => some (transfer "mv" fun source target files => files.rename source target)
  | "ls" => some ls
  | "basename" => some basename
  | "dirname" => some dirname
  | "sleep" => some sleep
  | "echo" => some echo
  | "printf" => some printf
  | "pwd" => some pwd
  | "true" => some fun _ => return 0
  | "false" => some fun _ => return 1
  | _ => none

end Tool

end CapabilityPipeline.Shell
