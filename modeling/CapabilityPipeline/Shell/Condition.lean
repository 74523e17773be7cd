import CapabilityPipeline.Shell.Arithmetic
import CapabilityPipeline.Shell.Machine

/-!
# Conditions

The conditions that `test` decides: about texts, numbers and files, joined by signs for not, and,
and or.

Results:

* `Condition.holds`: whether a condition holds, or why that cannot be told.
-/

namespace CapabilityPipeline.Shell

open Text (Octets)

/-- Why it cannot be told whether a condition holds. -/
inductive ConditionFault where
  | badNumber (text : Octets)
  | argumentExpected (sign : String)
  | parenthesisExpected
  | unexpectedOperator (text : Octets)
  deriving DecidableEq, Repr

/-- The wording of a fault in a condition. -/
def ConditionFault.message : ConditionFault → Octets
  | badNumber text => Octets.ofText "Illegal number: " ++ text
  | argumentExpected sign => Octets.ofText s!"{sign}: argument expected"
  | parenthesisExpected => Octets.ofText "closing paren expected"
  | unexpectedOperator text => text ++ Octets.ofText ": unexpected operator"

namespace Condition

/-- The number that an operand holds. -/
def number (text : Octets) : Except ConditionFault Int :=
  match numberOf? text with
  | some n => .ok n
  | none => .error (.badNumber text)

/-- Signs between two operands. -/
def binarySigns : List String :=
  ["=", "!=", "<", ">", "-eq", "-ne", "-lt", "-le", "-gt", "-ge"]

/-- Signs before one operand. -/
def unarySigns : List String :=
  ["-n", "-z", "-e", "-f", "-d", "-s", "-r", "-w", "-x", "-L", "-h", "-p", "-S", "-b", "-c",
    "-t", "-u", "-g", "-k", "-O", "-G"]

/-- The comparison of two operands. -/
def compare (sign : String) (a b : Octets) : Except ConditionFault Bool :=
  match sign with
  | "=" => .ok (a = b)
  | "!=" => .ok (a ≠ b)
  | "<" => .ok (a < b)
  | ">" => .ok (b < a)
  | _ => do
    let m ← number a
    let n ← number b
    return match sign with
      | "-eq" => m = n
      | "-ne" => m ≠ n
      | "-lt" => m < n
      | "-le" => m ≤ n
      | "-gt" => n < m
      | _ => n ≤ m

/-- What is said of one operand. The function finds what is at a path. -/
def check (find : Octets → Option Entry) (sign : String) (a : Octets) : Bool :=
  let isFile (entry : Entry) : Bool := entry ≠ .directory
  match sign with
  | "-n" => !a.isEmpty
  | "-z" => a.isEmpty
  | "-e" | "-r" | "-w" | "-O" | "-G" => (find a).isSome
  | "-f" => (find a).any isFile
  | "-d" | "-x" => (find a).any fun entry => !isFile entry
  | "-s" => (find a).any (· ≠ .file [])
  | _ => false

/-- The start of words is no sign before an operand but an operand itself. -/
def startsOperand : List Octets → Bool
  | [_] => true
  | _ :: sign :: _ :: _ => binarySigns.contains (String.ofList sign)
  | _ => false

mutual

/-- Conditions of which one must hold, and the words after them. A missing condition does not
hold. The number bounds the words. -/
def orFrom (find : Octets → Option Entry) : (bound : Nat) → List Octets →
    Except ConditionFault (Bool × List Octets)
  | 0, words => .ok (false, words)
  | bound + 1, words => do
    let (a, rest) ← andFrom find bound words
    if rest.head? = some "-o".toList then
      let (b, rest) ← orFrom find bound rest.tail
      return (a || b, rest)
    return (a, rest)

/-- Conditions of which all must hold, and the words after them. -/
def andFrom (find : Octets → Option Entry) : (bound : Nat) → List Octets →
    Except ConditionFault (Bool × List Octets)
  | 0, words => .ok (false, words)
  | bound + 1, words => do
    let (a, rest) ← notFrom find bound words
    if rest.head? = some "-a".toList then
      let (b, rest) ← andFrom find bound rest.tail
      return (a && b, rest)
    return (a, rest)

/-- A condition that may be negated, and the words after it. -/
def notFrom (find : Octets → Option Entry) : (bound : Nat) → List Octets →
    Except ConditionFault (Bool × List Octets)
  | 0, words => .ok (false, words)
  | bound + 1, words => do
    if words.head? = some "!".toList then
      let (a, rest) ← notFrom find bound words.tail
      return (!a, rest)
    primaryFrom find bound words

/-- A condition about one or two operands, or one between parentheses, and the words after it. -/
def primaryFrom (find : Octets → Option Entry) : (bound : Nat) → List Octets →
    Except ConditionFault (Bool × List Octets)
  | 0, words => .ok (false, words)
  | _, [] => .ok (false, [])
  | bound + 1, a :: rest => do
    let sign := String.ofList a
    if sign = "(" ∧ !rest.isEmpty then
      if rest.head? = some ")".toList then return (false, rest.tail)
      let (b, after) ← orFrom find bound rest
      if after.head? = some ")".toList then return (b, after.tail)
      throw .parenthesisExpected
    if unarySigns.contains sign ∧ !startsOperand (a :: rest) then
      return (check find sign (rest.headD []), rest.tail)
    match rest with
    | between :: after =>
      let between := String.ofList between
      if !binarySigns.contains between then return (!a.isEmpty, rest)
      match after with
      | b :: after => return (← compare between a b, after)
      | [] => throw (.argumentExpected between)
    | [] => return (!a.isEmpty, [])

end

/-- Whether the words of a condition hold, whatever their number. -/
def generalHolds (find : Octets → Option Entry) (words : List Octets) :
    Except ConditionFault Bool := do
  let (result, rest) ← orFrom find (4 * words.length + 4) words
  if rest.isEmpty then return result
  throw (.unexpectedOperator (words[words.length - rest.length - 1]?.getD []))

/-- Whether the words of a condition hold. Where there are up to four words, a sign between two
operands counts first, then parentheses around the rest, then the sign for not. -/
def holds (find : Octets → Option Entry) : List Octets → Except ConditionFault Bool
  | [] => .ok false
  | a :: rest => do
    let words := a :: rest
    let isShort := words.length = 3 ∨ words.length = 4
    let middle := String.ofList (rest.headD [])
    if words.length = 3 ∧ binarySigns.contains middle then
      compare middle a (words.getLast?.getD [])
    else if isShort ∧ a = ['('] ∧ words.getLast? = some [')'] then
      generalHolds find rest.dropLast
    else if isShort ∧ a = ['!'] then return !(← holds find rest)
    else generalHolds find words

end Condition

end CapabilityPipeline.Shell
