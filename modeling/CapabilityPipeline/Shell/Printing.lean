import CapabilityPipeline.Shell.Arithmetic

/-!
# Printing

The texts that `echo` and `printf` print. In both, a backslash and what follows it stand for a
character. A format has directives in which arguments are put, and is filled again as long as
arguments are left that it takes.

Results:

* `echoed`: the text that `echo` prints.
* `Printout`, `printed`: the text that `printf` prints, and what is wrong with its arguments.
-/

namespace CapabilityPipeline.Shell

open Text (Octets)

/-! ## Backslashes -/

/-- The character of up to three octal digits, and what is after them. -/
def octalAt (cs : Octets) : Char × Octets :=
  let digits := (digitsAt 8 cs).take 3
  (Char.ofNat (ofDigits 8 digits % 256), cs.drop digits.length)

/-- The character that a backslash and what follows stand for, and what is after them. -/
def escapeAt : Octets → Char × Octets
  | 'a' :: rest => ('\x07', rest)
  | 'b' :: rest => ('\x08', rest)
  | 'e' :: rest => ('\x1b', rest)
  | 'f' :: rest => ('\x0c', rest)
  | 'n' :: rest => ('\n', rest)
  | 'r' :: rest => ('\r', rest)
  | 't' :: rest => ('\t', rest)
  | 'v' :: rest => ('\x0b', rest)
  | '\\' :: rest => ('\\', rest)
  | cs => if cs.head?.any (fun c => '0' ≤ c && c ≤ '7') then octalAt cs else ('\\', cs)

/-- A text with backslashes taken together with what follows them, and whether one of them ends
it. After a zero there are up to three more octal digits. The number bounds the characters. -/
def unescapeWithin : (bound : Nat) → Octets → Octets × Bool
  | 0, _ => ([], false)
  | _, [] => ([], false)
  | _, '\\' :: 'c' :: _ => ([], true)
  | bound + 1, cs =>
    let (c, rest) := match cs with
      | '\\' :: '0' :: rest => octalAt rest
      | '\\' :: rest => escapeAt rest
      | c :: rest => (c, rest)
      | [] => ('\\', [])
    let (text, ended) := unescapeWithin bound rest
    (c :: text, ended)

/-- A text with backslashes taken together with what follows them, and whether one of them ends
it. -/
def unescape (cs : Octets) : Octets × Bool :=
  unescapeWithin (cs.length + 1) cs

/-- Texts with blanks between them. -/
def joined (texts : List Octets) : Octets :=
  [' '].intercalate texts

/-- What `echo` prints. -/
def echoed (arguments : List Octets) : Octets :=
  let quiet := arguments.head? = some ['-', 'n']
  let (text, ended) := unescape (joined (if quiet then arguments.tail else arguments))
  if quiet || ended then text else text ++ ['\n']

/-! ## Directives -/

/-- A directive of a format, up to its last character. -/
structure Directive where
  flags : Octets
  width : Nat
  precision : Option Nat

namespace Directive

/-- A text, filled up to the width. -/
def filled (d : Directive) (text : Octets) : Octets :=
  let missing := List.replicate (d.width - text.length) ' '
  if d.flags.contains '-' then text ++ missing else missing ++ text

/-- The digits of a number after what is before them, filled up to the width. -/
def filledNumber (d : Directive) (before digits : Octets) : Octets :=
  match d.precision with
  | some least =>
    let digits := if least = 0 ∧ digits = ['0'] then [] else digits
    d.filled (before ++ List.replicate (least - digits.length) '0' ++ digits)
  | none =>
    if d.flags.contains '0' ∧ !d.flags.contains '-' then
      before ++ List.replicate (d.width - before.length - digits.length) '0' ++ digits
    else d.filled (before ++ digits)

/-- An integer with a sign. -/
def signed (d : Directive) (n : Int) : Octets :=
  let sign : Octets :=
    if n < 0 then ['-'] else if d.flags.contains '+' then ['+']
    else if d.flags.contains ' ' then [' '] else []
  d.filledNumber sign (digitsOf 10 n.natAbs)

/-- A number in a base. -/
def unsigned (d : Directive) (base : Nat) (n : Nat) : Octets :=
  let mark : Octets :=
    if !d.flags.contains '#' ∨ n = 0 then [] else if base = 16 then ['0', 'x']
    else if base = 8 then ['0'] else []
  d.filledNumber mark (digitsOf base n)

/-- A text, cut to the precision. -/
def text (d : Directive) (cs : Octets) : Octets :=
  d.filled (match d.precision with
    | some most => cs.take most
    | none => cs)

end Directive

/-! ## Formats -/

/-- What is wrong with an argument that should be a number. -/
inductive NumberFault where
  | noNumber (argument : Octets)
  /-- Something comes after the number. -/
  | partly (argument : Octets)
  deriving DecidableEq, Repr

/-- What `printf` has printed. -/
structure Printout where
  text : Octets
  faults : List NumberFault
  /-- Arguments that have not been taken. -/
  arguments : List Octets
  /-- Nothing more is printed. -/
  ended : Bool
  /-- A directive that is none. -/
  broken : Option Octets

namespace Printout

/-- More is printed. -/
def add (p : Printout) (text : Octets) : Printout :=
  { p with text := p.text ++ text }

/-- The next argument, if there is one. -/
def next (p : Printout) : Option Octets × Printout :=
  (p.arguments.head?, { p with arguments := p.arguments.tail })

/-- The next argument as an integer. -/
def nextInt (p : Printout) : Int × Printout :=
  match p.next with
  | (none, p) | (some [], p) => (0, p)
  | (some ('"' :: rest), p) | (some ('\'' :: rest), p) =>
    ((rest.head?.map fun c => (c.toNat : Int)).getD 0, p)
  | (some argument, p) =>
    let faulty (fault : NumberFault) : Printout := { p with faults := p.faults ++ [fault] }
    match integerAt none argument with
    | none => (0, faulty (.noNumber argument))
    | some (n, []) => (n, p)
    | some (n, _) => (n, faulty (.partly argument))

/-- The number at the start of a text, or the next argument for a star. -/
def sizeAt (p : Printout) : Octets → Int × Printout × Octets
  | '*' :: rest =>
    let (n, p) := p.nextInt
    (n, p, rest)
  | cs =>
    let digits := digitsAt 10 cs
    (ofDigits 10 digits, p, cs.drop digits.length)

/-- Prints the directive at the start of a text after its sign. Gives what is after it. -/
def directive (p : Printout) (cs : Octets) : Printout × Octets :=
  let flags := cs.takeWhile fun c => ['#', '-', '+', ' ', '0'].contains c
  let (width, p, rest) := p.sizeAt (cs.drop flags.length)
  let flags := if width < 0 then '-' :: flags else flags
  let (precision, p, rest) := match rest with
    | '.' :: rest =>
      let (n, p, rest) := p.sizeAt rest
      (if n < 0 then none else some n.toNat, p, rest)
    | rest => (none, p, rest)
  let d : Directive := ⟨flags, width.natAbs, precision⟩
  let word (n : Int) : Nat := (n % 18446744073709551616).toNat
  match rest with
  | 'd' :: rest | 'i' :: rest =>
    let (n, p) := p.nextInt
    (p.add (d.signed n), rest)
  | 'u' :: rest =>
    let (n, p) := p.nextInt
    (p.add (d.unsigned 10 (word n)), rest)
  | 'o' :: rest =>
    let (n, p) := p.nextInt
    (p.add (d.unsigned 8 (word n)), rest)
  | 'x' :: rest =>
    let (n, p) := p.nextInt
    (p.add (d.unsigned 16 (word n)), rest)
  | 'X' :: rest =>
    let (n, p) := p.nextInt
    (p.add ((d.unsigned 16 (word n)).map Char.toUpper), rest)
  | 'c' :: rest =>
    let (argument, p) := p.next
    (p.add (d.filled [((argument.getD []).head?).getD '\x00']), rest)
  | 's' :: rest =>
    let (argument, p) := p.next
    (p.add (d.text (argument.getD [])), rest)
  | 'b' :: rest =>
    let (argument, p) := p.next
    let (text, ended) := unescape (argument.getD [])
    ({ p.add (d.text text) with ended }, rest)
  | _ =>
    let length := cs.length - rest.length
    ({ p with ended := true, broken := some ('%' :: cs.take (length + 1)) }, rest)

/-- Prints a format once. The number bounds its characters. -/
def fillWithin : (bound : Nat) → Octets → Printout → Printout
  | 0, _, p => p
  | _, [], p => p
  | bound + 1, cs, p =>
    if p.ended then p
    else match cs with
      | '\\' :: rest =>
        let (c, rest) := escapeAt rest
        fillWithin bound rest (p.add [c])
      | '%' :: '%' :: rest => fillWithin bound rest (p.add ['%'])
      | '%' :: rest =>
        let (p, rest) := p.directive rest
        fillWithin bound rest p
      | c :: rest => fillWithin bound rest (p.add [c])
      | [] => p

/-- Prints a format as often as arguments are left that it takes. The number bounds how often. -/
def fillAgain (format : Octets) : (bound : Nat) → Printout → Printout
  | 0, p => p
  | bound + 1, p =>
    let next := fillWithin (format.length + 1) format p
    if next.ended ∨ next.arguments.isEmpty ∨ next.arguments.length = p.arguments.length then next
    else fillAgain format bound next

end Printout

/-- What `printf` prints. -/
def printed (format : Octets) (arguments : List Octets) : Printout :=
  Printout.fillAgain format (arguments.length + 1) ⟨[], [], arguments, false, none⟩

end CapabilityPipeline.Shell
