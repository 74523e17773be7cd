import CapabilityPipeline.Json.Literal
import CapabilityPipeline.Json.Tree

/-!
# Reading JSON

A reader takes a tree from the front of a text and leaves the rest, or finds the first fault.
A strict reader refuses numbers out of range, escapes that name no character, bytes that are
no text, and brackets nested more than 127 deep. A lenient one keeps such parts as unusable.

Results:

* `Tree.read`, `Tree.readLenient`: the tree that a whole text holds.
* `Value.read`: the value that a whole text holds, read strictly.
-/

namespace CapabilityPipeline.Json

open Text (Symbol)

/-! ## Strings -/

/-- The value of a hexadecimal digit. -/
def hexValue? : Symbol → Option Nat
  | .char c =>
    if '0' ≤ c ∧ c ≤ '9' then some (c.toNat - 48)
    else if 'a' ≤ c ∧ c ≤ 'f' then some (c.toNat - 87)
    else if 'A' ≤ c ∧ c ≤ 'F' then some (c.toNat - 55)
    else none
  | .broken _ => none

/-- The number of four hexadecimal digits. -/
def hexNumber? (a b c d : Symbol) : Option Nat := do
  let a ← hexValue? a
  let b ← hexValue? b
  let c ← hexValue? c
  let d ← hexValue? d
  some (((a * 16 + b) * 16 + c) * 16 + d)

/-- The character that a one-letter escape stands for. -/
def escapedBy? : Char → Option Char
  | '"' => some '"'
  | '\\' => some '\\'
  | '/' => some '/'
  | 'b' => some '\x08'
  | 'f' => some '\x0c'
  | 'n' => some '\n'
  | 'r' => some '\r'
  | 't' => some '\t'
  | _ => none

/-- The first half of a pair of escapes for one character. -/
def isLeadingSurrogate (n : Nat) : Bool :=
  0xD800 ≤ n && n ≤ 0xDBFF

/-- The second half of a pair of escapes for one character. -/
def isTrailingSurrogate (n : Nat) : Bool :=
  0xDC00 ≤ n && n ≤ 0xDFFF

/-- The fault of four digits that are not hexadecimal: four bytes are taken before they are
looked at. -/
def hexFault (digits : List Symbol) : Fault :=
  if digits.foldr (fun s n => s.size + n) 0 < 4 then ⟨.endInString, [], 0⟩
  else Fault.after .invalidEscape 4 digits

/-- A character before the string read after it. -/
def consChar (c : Char) : Option (List Char) × List Symbol → Option (List Char) × List Symbol
  | (some cs, rest) => (some (c :: cs), rest)
  | (none, rest) => (none, rest)

/-- What follows the first half of a pair when it is not the start of another escape. -/
def halfPairFault : List Symbol → Fault
  | [] => ⟨.endInString, [], 0⟩
  | .char '\\' :: [] => ⟨.endInString, [], 0⟩
  | .char '\\' :: rest => Fault.after .unexpectedEndOfEscape 1 rest
  | rest => Fault.after .unexpectedEndOfEscape 1 rest

/-- The text goes on with an escape that is the second half of a pair. -/
def startsTrailing : List Symbol → Bool
  | .char '\\' :: .char 'u' :: a :: b :: c :: d :: _ =>
    (hexNumber? a b c d).any isTrailingSurrogate
  | _ => false

/-- The characters up to the closing quote, and the rest after it. None stands for a string
with a part that is no character, in a part of the text that is skipped. Elsewhere the first
such part is a fault, unless the string is faulty otherwise. -/
def readChars (skipping : Bool) :
    List Symbol → Except Fault (Option (List Char) × List Symbol)
  | [] => Fault.here .endInString []
  | .broken bytes :: rest =>
    match readChars skipping rest with
    | .ok (_, after) =>
      if skipping then .ok (none, after)
      else Fault.peeked .invalidCodePoint (.broken bytes :: rest)
    | .error fault =>
      if fault.cause = .invalidCodePoint then
        Fault.peeked .invalidCodePoint (.broken bytes :: rest)
      else .error fault
  | .char '"' :: rest => .ok (some [], rest)
  | .char '\\' :: .char 'u' :: a :: b :: c :: d :: rest =>
    match hexNumber? a b c d with
    | none => .error (hexFault (a :: b :: c :: d :: rest))
    | some n =>
      if skipping && (isTrailingSurrogate n || isLeadingSurrogate n && !startsTrailing rest) then do
        let (_, rest) ← readChars skipping rest
        .ok (none, rest)
      else if isTrailingSurrogate n then Fault.here .loneSurrogate rest
      else if isLeadingSurrogate n then
        match rest with
        | .char '\\' :: .char 'u' :: a :: b :: c :: d :: rest =>
          match hexNumber? a b c d with
          | none => .error (hexFault (a :: b :: c :: d :: rest))
          | some m =>
            if isTrailingSurrogate m then
              let point := 0x10000 + (n - 0xD800) * 0x400 + (m - 0xDC00)
              return consChar (Char.ofNat point) (← readChars skipping rest)
            else Fault.here .loneSurrogate rest
        | .char '\\' :: .char 'u' :: short => .error (hexFault short)
        | rest => .error (halfPairFault rest)
      else return consChar (Char.ofNat n) (← readChars skipping rest)
  | .char '\\' :: .char 'u' :: short => .error (hexFault short)
  | .char '\\' :: [] => Fault.here .endInString []
  | .char '\\' :: .broken bytes :: rest => Fault.peeked .invalidEscape (.broken bytes :: rest)
  | .char '\\' :: .char c :: rest =>
    match escapedBy? c with
    | some image => return consChar image (← readChars skipping rest)
    | none => Fault.peeked .invalidEscape (.char c :: rest)
  | .char c :: rest =>
    if c.toNat < 0x20 then
      Fault.here .controlCharacter (if skipping then .char c :: rest else rest)
    else return consChar c (← readChars skipping rest)

/-! ## Values -/

/-- How a text is read: whether unusable parts are skipped over. -/
inductive Care where
  | strict
  | lenient
  deriving DecidableEq, Repr

/-- Unusable parts are skipped over. -/
def Care.skips : Care → Bool
  | strict => false
  | lenient => true

/-- What is wrong with a comma before the end of an array. -/
def Care.commaBeforeBracket : Care → Cause
  | strict => .trailingComma
  | lenient => .expectedValue

/-- What is wrong with a comma before the end of an object. -/
def Care.commaBeforeBrace : Care → Cause
  | strict => .trailingComma
  | lenient => .keyNotString

/-- What is wrong with a text that ends after a comma in an object. -/
def Care.endAfterComma : Care → Cause
  | strict => .endInValue
  | lenient => .endInObject

/-- A space, a tab or a line break. -/
def isSpace : Symbol → Bool
  | .char c => c = ' ' || c = '\t' || c = '\n' || c = '\r'
  | .broken _ => false

/-- The text from its first symbol that is no space. -/
def skipSpace (text : List Symbol) : List Symbol :=
  text.dropWhile isSpace

/-- The rest after the given letters of a word. -/
def readWord : List Char → List Symbol → Except Fault (List Symbol)
  | [], rest => .ok rest
  | _ :: _, [] => Fault.here .endInValue []
  | c :: cs, s :: rest =>
    if s = .char c then readWord cs rest else Fault.peeked .expectedIdent (s :: rest)

/-- Symbols that can start a number. -/
def startsNumber : Symbol → Bool
  | .char c => c = '-' || ('0' ≤ c && c ≤ '9')
  | .broken _ => false

/-- The tree of a string that may be unusable. -/
def stringTree : Option (List Char) → Tree
  | some cs => .string (String.ofList cs)
  | none => .unusable

/-- The tree of a number that may be unusable. -/
def numberTree : Option Number → Tree
  | some n => .number n
  | none => .unusable

/-- The first member before the others. A name that is no text makes the object unusable. -/
def consMember (name : Option (List Char)) (tree : Tree) (others : Tree) : Tree :=
  match name, others with
  | some cs, .object members => .object ((String.ofList cs, tree) :: members)
  | _, _ => .unusable

/-- The first item before the others. -/
def consItem (tree : Tree) : Tree → Tree
  | .array items => .array (tree :: items)
  | _ => .unusable

/-- The name of a member with the colon after it. -/
def readName (care : Care) (text : List Symbol) :
    Except Fault (Option (List Char) × List Symbol) := do
  let (name, rest) ← readChars care.skips text
  match skipSpace rest with
  | .char ':' :: rest => .ok (name, rest)
  | [] => Fault.peeked .endInObject []
  | rest => Fault.peeked .expectedColon rest

/-- A container that is too deep inside others is unusable. -/
def tooDeep (room : Nat) (tree : Tree) : Tree :=
  if room = 0 then .unusable else tree

mutual

/-- A value at the front of a text. `room` is the number of brackets that may still be opened
inside each other; the first argument bounds the work. -/
def readTree (care : Care) : Nat → (room : Nat) → List Symbol → Except Fault (Tree × List Symbol)
  | 0, _, _ => Fault.here .endInValue []
  | work + 1, room, text =>
    match skipSpace text with
    | [] => Fault.peeked .endInValue []
    | .char 'n' :: rest => do
      let rest ← readWord ['u', 'l', 'l'] rest
      .ok (.null, rest)
    | .char 't' :: rest => do
      let rest ← readWord ['r', 'u', 'e'] rest
      .ok (.bool true, rest)
    | .char 'f' :: rest => do
      let rest ← readWord ['a', 'l', 's', 'e'] rest
      .ok (.bool false, rest)
    | .char '"' :: rest => do
      let (chars, rest) ← readChars care.skips rest
      .ok (stringTree chars, rest)
    | .char '[' :: rest =>
      if room = 0 ∧ care = .strict then Fault.peeked .nestedTooDeep (.char '[' :: rest)
      else match skipSpace rest with
        | [] => Fault.peeked .endInList []
        | .char ']' :: rest => .ok (tooDeep room (.array []), rest)
        | rest => do
          let (tree, rest) ← readItems care work (room - 1) rest
          .ok (tooDeep room tree, rest)
    | .char '\x7b' :: rest =>
      if room = 0 ∧ care = .strict then Fault.peeked .nestedTooDeep (.char '\x7b' :: rest)
      else match skipSpace rest with
        | [] => Fault.peeked .endInObject []
        | .char '\x7d' :: rest => .ok (tooDeep room (.object []), rest)
        | .char '"' :: rest => do
          let (tree, rest) ← readMembers care work (room - 1) rest
          .ok (tooDeep room tree, rest)
        | rest => Fault.peeked .keyNotString rest
    | s :: rest =>
      if startsNumber s then do
        let (n, rest) ← readNumber care.skips (s :: rest)
        .ok (numberTree n, rest)
      else Fault.peeked .expectedValue (s :: rest)

/-- The items of an array from the first one, up to the closing bracket. -/
def readItems (care : Care) : Nat → (room : Nat) → List Symbol → Except Fault (Tree × List Symbol)
  | 0, _, _ => Fault.here .endInValue []
  | work + 1, room, text => do
    let (tree, rest) ← readTree care work room text
    match skipSpace rest with
    | [] => Fault.peeked .endInList []
    | .char ']' :: rest => .ok (.array [tree], rest)
    | .char ',' :: rest =>
      match skipSpace rest with
      | [] => Fault.peeked .endInValue []
      | .char ']' :: rest => Fault.peeked care.commaBeforeBracket (.char ']' :: rest)
      | rest => do
        let (others, rest) ← readItems care work room rest
        .ok (consItem tree others, rest)
    | rest => Fault.peeked .expectedListEnd rest

/-- The members of an object from after the quote of the first name, up to the closing
brace. -/
def readMembers (care : Care) :
    Nat → (room : Nat) → List Symbol → Except Fault (Tree × List Symbol)
  | 0, _, _ => Fault.here .endInValue []
  | work + 1, room, text => do
    let (name, rest) ← readName care text
    let (tree, rest) ← readTree care work room rest
    match skipSpace rest with
    | [] => Fault.peeked .endInObject []
    | .char '\x7d' :: rest => .ok (consMember name tree (.object []), rest)
    | .char ',' :: rest =>
      match skipSpace rest with
      | [] => Fault.peeked care.endAfterComma []
      | .char '"' :: rest => do
        let (others, rest) ← readMembers care work room rest
        .ok (consMember name tree others, rest)
      | .char '\x7d' :: rest => Fault.peeked care.commaBeforeBrace (.char '\x7d' :: rest)
      | rest => Fault.peeked .keyNotString rest
    | rest => Fault.peeked .expectedObjectEnd rest

end

/-! ## Whole texts -/

/-- Brackets that may be open at a time. -/
def maxDepth : Nat := 127

/-- The tree that a text holds, with nothing after it. -/
def readWhole? (care : Care) (text : List Symbol) : Except Fault Tree := do
  let (tree, rest) ← readTree care (2 * text.length + 2) maxDepth text
  match skipSpace rest with
  | [] => .ok tree
  | rest => Fault.peeked .trailingCharacters rest

/-- The tree that a text holds, or its first fault with the position. -/
def Tree.readWith (care : Care) (text : List Symbol) : Except Located Tree :=
  (readWhole? care text).mapError fun fault => fault.located text

/-- The tree that a text holds, read strictly. -/
def Tree.read (text : List Symbol) : Except Located Tree :=
  Tree.readWith .strict text

/-- The tree that a text holds, with unusable parts kept. -/
def Tree.readLenient (text : List Symbol) : Except Located Tree :=
  Tree.readWith .lenient text

/-- The value that a text holds. -/
def Value.read (text : List Symbol) : Except Located Value :=
  (Tree.read text).map Tree.toValue

/-- The value that a string holds. -/
def Value.ofText (text : String) : Except Located Value :=
  Value.read (Symbol.ofText text)

end CapabilityPipeline.Json
