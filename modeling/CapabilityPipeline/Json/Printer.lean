import CapabilityPipeline.Json.Decimal
import CapabilityPipeline.Json.Value

/-!
# Printing JSON

The compact text of a value has no space outside strings. The pretty text puts each item and
member on a line of its own, indented by two spaces a level, and keeps empty containers closed.

Results:

* `Value.compact`, `Value.pretty`: the two texts of a value.
* `stringText`: a string between quotes, with only what must be escaped escaped.
-/

namespace CapabilityPipeline.Json

/-! ## Strings and numbers -/

/-- One of the sixteen hexadecimal digits, in lower case. -/
def hexDigit (n : Nat) : Char :=
  if n < 10 then Char.ofNat (48 + n) else Char.ofNat (87 + n)

/-- A character as it stands between quotes. -/
def escapedChar (c : Char) : List Char :=
  if c = '"' then ['\\', '"']
  else if c = '\\' then ['\\', '\\']
  else if c = '\n' then ['\\', 'n']
  else if c = '\r' then ['\\', 'r']
  else if c = '\t' then ['\\', 't']
  else if c = '\x08' then ['\\', 'b']
  else if c = '\x0c' then ['\\', 'f']
  else if c.toNat < 0x20 then
    ['\\', 'u', '0', '0', hexDigit (c.toNat / 16), hexDigit (c.toNat % 16)]
  else [c]

/-- A string between quotes. -/
def stringText (text : String) : List Char :=
  '"' :: text.toList.flatMap escapedChar ++ ['"']

/-- The text of an integer. -/
def integerText (n : Int) : List Char :=
  if n < 0 then '-' :: Nat.toDigits 10 n.natAbs else Nat.toDigits 10 n.natAbs

/-- The text of a number. -/
def Number.text : Number → List Char
  | .integer value _ => integerText value
  | .double value => doubleText value

/-! ## Compact text -/

namespace Value

mutual

/-- The compact text of a value. -/
def chars : Value → List Char
  | .null => ['n', 'u', 'l', 'l']
  | .bool true => ['t', 'r', 'u', 'e']
  | .bool false => ['f', 'a', 'l', 's', 'e']
  | .number n => n.text
  | .string s => stringText s
  | .array items => '[' :: itemChars items ++ [']']
  | .object members => '\x7b' :: memberChars members ++ ['\x7d']

/-- The compact texts of items, separated by commas. -/
def itemChars : List Value → List Char
  | [] => []
  | [item] => chars item
  | item :: rest => chars item ++ ',' :: itemChars rest

/-- The compact texts of members, separated by commas. -/
def memberChars : List (String × Value) → List Char
  | [] => []
  | [(name, value)] => stringText name ++ ':' :: chars value
  | (name, value) :: rest => stringText name ++ ':' :: chars value ++ ',' :: memberChars rest

end

/-- The compact text of a value. -/
def compact (v : Value) : String :=
  String.ofList v.chars

/-! ## Pretty text -/

/-- A line break and the indentation of a level. -/
def lineBreak (level : Nat) : List Char :=
  '\n' :: List.replicate (2 * level) ' '

mutual

/-- The pretty text of a value that stands at a level of indentation. -/
def prettyChars (level : Nat) : Value → List Char
  | .array [] => ['[', ']']
  | .object [] => ['\x7b', '\x7d']
  | .array items =>
    '[' :: lineBreak (level + 1) ++ prettyItems (level + 1) items ++ lineBreak level ++ [']']
  | .object members =>
    '\x7b' :: lineBreak (level + 1) ++ prettyMembers (level + 1) members ++
      lineBreak level ++ ['\x7d']
  | v => chars v

/-- The pretty texts of items, each on its own line. -/
def prettyItems (level : Nat) : List Value → List Char
  | [] => []
  | [item] => prettyChars level item
  | item :: rest => prettyChars level item ++ ',' :: lineBreak level ++ prettyItems level rest

/-- The pretty texts of members, each on its own line. -/
def prettyMembers (level : Nat) : List (String × Value) → List Char
  | [] => []
  | [(name, value)] => stringText name ++ [':', ' '] ++ prettyChars level value
  | (name, value) :: rest =>
    stringText name ++ [':', ' '] ++ prettyChars level value ++ ',' :: lineBreak level ++
      prettyMembers level rest

end

/-- The pretty text of a value. -/
def pretty (v : Value) : String :=
  String.ofList (prettyChars 0 v)

end Value

end CapabilityPipeline.Json
