import CapabilityPipeline.Shell.Token

/-!
# Arithmetic

Expressions over integers of 64 bits, which wrap around. Names stand for the numbers that
variables hold, and may be assigned to.

Results:

* `Arithmetic.ofText`: the expression that a text holds.
* `Arithmetic.value`: its value, and the assignments that it makes.
* `numberOf?`: the number that a text holds, the form of numbers everywhere in a shell.
-/

namespace CapabilityPipeline.Shell

open Text (Octets)

/-! ## Numbers -/

/-- The value of a digit, as a letter from ten on. -/
def digitValue? (c : Char) : Option Nat :=
  if c.isDigit then some (c.toNat - '0'.toNat)
  else if 'a' ≤ c ∧ c ≤ 'z' then some (c.toNat - 'a'.toNat + 10)
  else if 'A' ≤ c ∧ c ≤ 'Z' then some (c.toNat - 'A'.toNat + 10)
  else none

/-- The digits of a base at the start of a text. -/
def digitsAt (base : Nat) (cs : Octets) : Octets :=
  cs.takeWhile fun c => (digitValue? c).any (· < base)

/-- The number of digits in a base. -/
def ofDigits (base : Nat) (digits : Octets) : Nat :=
  digits.foldl (fun n c => n * base + (digitValue? c).getD 0) 0

/-- The base that the start of a number tells, and how many characters tell it. -/
def baseAt : Octets → Nat × Nat
  | '0' :: 'x' :: c :: _ => if (digitValue? c).any (· < 16) then (16, 2) else (8, 0)
  | '0' :: 'X' :: c :: _ => if (digitValue? c).any (· < 16) then (16, 2) else (8, 0)
  | '0' :: _ => (8, 0)
  | _ => (10, 0)

/-- A blank before a number. -/
def isSpace (c : Char) : Bool :=
  [' ', '\t', '\n', '\x0b', '\x0c', '\r'].contains c

/-- The integer at the start of a text, in a base if one is given and else in the one that the
text tells, and what is after it. There may be blanks and a sign before the digits. -/
def integerAt (base : Option Nat) (cs : Octets) : Option (Int × Octets) :=
  let cs := cs.dropWhile isSpace
  let negative := cs.head? = some '-'
  let cs := if negative ∨ cs.head? = some '+' then cs.tail else cs
  let (base, skipped) := match base with
    | some base => (base, 0)
    | none => baseAt cs
  let digits := digitsAt base (cs.drop skipped)
  if digits.isEmpty then none
  else
    let size : Int := ofDigits base digits
    some (if negative then -size else size, cs.drop (skipped + digits.length))

/-- The decimal number that a text holds, with blanks around it. -/
def numberOf? (cs : Octets) : Option Int := do
  let (n, rest) ← integerAt (some 10) cs
  if rest.all isSpace then some n else none

/-- The digits of a number in a base. The number bounds how many there are. -/
def digitsWithin (base : Nat) : (bound : Nat) → Nat → Octets
  | 0, _ => []
  | bound + 1, n =>
    let digit := Char.ofNat (if n % base < 10 then '0'.toNat + n % base
      else 'a'.toNat + n % base - 10)
    if n < base then [digit] else digitsWithin base bound (n / base) ++ [digit]

/-- The digits of a number in a base. -/
def digitsOf (base n : Nat) : Octets :=
  digitsWithin base (n + 1) n

/-- An integer in decimal digits. -/
def textOfInt (n : Int) : Octets :=
  if n < 0 then '-' :: digitsOf 10 n.natAbs else digitsOf 10 n.natAbs

/-! ## Expressions -/

/-- An expression. -/
inductive Arithmetic where
  | number (n : Int64)
  | named (name : String)
  | unary (sign : String) (operand : Arithmetic)
  | binary (sign : String) (left right : Arithmetic)
  | choice (condition yes no : Arithmetic)
  /-- An assignment, of the result of an operation with the old value if there is a sign. -/
  | assign (name sign : String) (value : Arithmetic)

/-- Why an expression has no value. -/
inductive ArithmeticFault where
  | expectingPrimary
  | expectingEnd
  | expectingColon
  | expectingParenthesis
  | divisionByZero
  | badNumber (text : Octets)
  deriving DecidableEq, Repr

namespace Arithmetic

/-- A part of the text of an expression. -/
inductive Part where
  | number (n : Int64)
  | name (name : String)
  | sign (text : String)
  deriving DecidableEq, Repr

/-- The signs, longer ones before those that they start with. -/
def signs : List String :=
  ["<<=", ">>=", "<<", ">>", "<=", ">=", "==", "!=", "&&", "||", "+=", "-=", "*=", "/=", "%=",
    "&=", "|=", "^=", "=", "+", "-", "*", "/", "%", "<", ">", "&", "|", "^", "!", "~", "?", ":",
    "(", ")"]

/-- The parts of a text. The number bounds them. -/
def partsFrom : (bound : Nat) → Octets → Option (List Part)
  | 0, _ => none
  | _, [] => some []
  | bound + 1, c :: rest =>
    let cs := c :: rest
    if isSpace c then partsFrom bound rest
    else if c.isDigit then do
      let (n, rest) ← integerAt none cs
      return .number (Int64.ofInt n) :: (← partsFrom bound rest)
    else if startsName c then do
      let name := nameAt cs
      return .name (String.ofList name) :: (← partsFrom bound (cs.drop name.length))
    else do
      let sign ← signs.find? fun sign => sign.toList.isPrefixOf cs
      return .sign sign :: (← partsFrom bound (cs.drop sign.length))

/-- How tightly a sign between operands binds. -/
def strength? (sign : String) : Option Nat :=
  match sign with
  | "||" => some 1
  | "&&" => some 2
  | "|" => some 3
  | "^" => some 4
  | "&" => some 5
  | "==" | "!=" => some 6
  | "<" | ">" | "<=" | ">=" => some 7
  | "<<" | ">>" => some 8
  | "+" | "-" => some 9
  | "*" | "/" | "%" => some 10
  | _ => none

/-- The operation of a sign that assigns. -/
def assigned? (sign : String) : Option String :=
  if ["=", "+=", "-=", "*=", "/=", "%=", "&=", "|=", "^=", "<<=", ">>="].contains sign then
    some (String.ofList sign.toList.dropLast)
  else none

mutual

/-- An expression with assignments. The number bounds the parts. -/
def readFull : (bound : Nat) → List Part → Except ArithmeticFault (Arithmetic × List Part)
  | 0, _ => .error .expectingPrimary
  | bound + 1, parts => do
    match parts with
    | .name name :: .sign sign :: rest =>
      match assigned? sign with
      | some operation =>
        let (value, rest) ← readFull bound rest
        return (.assign name operation value, rest)
      | none => readChoice bound parts
    | _ => readChoice bound parts

/-- An expression that may be a choice. -/
def readChoice : (bound : Nat) → List Part → Except ArithmeticFault (Arithmetic × List Part)
  | 0, _ => .error .expectingPrimary
  | bound + 1, parts => do
    let (condition, rest) ← readOperand bound parts
    let (condition, rest) ← readOperations bound 1 condition rest
    match rest with
    | .sign "?" :: rest =>
      let (yes, rest) ← readFull bound rest
      match rest with
      | .sign ":" :: rest =>
        let (no, rest) ← readChoice bound rest
        return (.choice condition yes no, rest)
      | _ => throw .expectingColon
    | _ => return (condition, rest)

/-- The operations after an operand that bind at least as tightly as a strength. -/
def readOperations : (bound strength : Nat) → Arithmetic → List Part →
    Except ArithmeticFault (Arithmetic × List Part)
  | 0, _, _, _ => .error .expectingPrimary
  | bound + 1, strength, left, parts => do
    match parts with
    | .sign sign :: rest =>
      match strength? sign with
      | some own =>
        if own < strength then return (left, parts)
        let (right, rest) ← readOperand bound rest
        let (right, rest) ← readOperations bound (own + 1) right rest
        readOperations bound strength (.binary sign left right) rest
      | none => return (left, parts)
    | _ => return (left, parts)

/-- An operand with the signs before it. -/
def readOperand : (bound : Nat) → List Part → Except ArithmeticFault (Arithmetic × List Part)
  | 0, _ => .error .expectingPrimary
  | bound + 1, parts => do
    match parts with
    | .number n :: rest => return (.number n, rest)
    | .name name :: rest => return (.named name, rest)
    | .sign "(" :: rest =>
      let (inside, rest) ← readFull bound rest
      match rest with
      | .sign ")" :: rest => return (inside, rest)
      | _ => throw .expectingParenthesis
    | .sign sign :: rest =>
      if ["-", "+", "!", "~"].contains sign then
        let (operand, rest) ← readOperand bound rest
        return (.unary sign operand, rest)
      else throw .expectingPrimary
    | [] => throw .expectingPrimary

end

/-- The expression that a text holds. A blank text is zero. -/
def ofText (cs : Octets) : Except ArithmeticFault Arithmetic := do
  match partsFrom (cs.length + 1) cs with
  | none => throw .expectingPrimary
  | some [] => return .number 0
  | some parts =>
    let (expression, rest) ← readFull (8 * parts.length + 8) parts
    if rest.isEmpty then return expression else throw .expectingEnd

/-! ## Values -/

/-- The truth of a statement as a number. -/
def ofBool (b : Bool) : Int64 :=
  if b then 1 else 0

/-- The result of an operation. -/
def operate (sign : String) (a b : Int64) : Except ArithmeticFault Int64 :=
  match sign with
  | "+" => .ok (a + b)
  | "-" => .ok (a - b)
  | "*" => .ok (a * b)
  | "/" => if b = 0 then .error .divisionByZero else .ok (a / b)
  | "%" => if b = 0 then .error .divisionByZero else .ok (a % b)
  | "<<" => .ok (a <<< b)
  | ">>" => .ok (a >>> b)
  | "<" => .ok (ofBool (a < b))
  | ">" => .ok (ofBool (b < a))
  | "<=" => .ok (ofBool (a ≤ b))
  | ">=" => .ok (ofBool (b ≤ a))
  | "==" => .ok (ofBool (a = b))
  | "!=" => .ok (ofBool (a ≠ b))
  | "&" => .ok (a &&& b)
  | "^" => .ok (a ^^^ b)
  | "|" => .ok (a ||| b)
  | _ => .ok b

/-- The number that a variable holds. A variable that is missing or empty holds zero. -/
def ofVariable (values : List (String × Octets)) (name : String) :
    Except ArithmeticFault Int64 :=
  match values.lookup name with
  | none | some [] => .ok 0
  | some text =>
    match integerAt none text with
    | some (n, rest) => if rest.all isSpace then .ok (Int64.ofInt n) else .error (.badNumber text)
    | none => .error (.badNumber text)

/-- The value of an expression among variables, and the variables after its assignments. -/
def value (values : List (String × Octets)) :
    Arithmetic → Except ArithmeticFault (Int64 × List (String × Octets))
  | number n => .ok (n, values)
  | named name => do return (← ofVariable values name, values)
  | unary sign operand => do
    let (n, values) ← value values operand
    let result := match sign with
      | "-" => -n
      | "!" => ofBool (n = 0)
      | "~" => ~~~n
      | _ => n
    return (result, values)
  | binary "&&" left right => do
    let (a, values) ← value values left
    if a = 0 then return (0, values)
    let (b, values) ← value values right
    return (ofBool (b ≠ 0), values)
  | binary "||" left right => do
    let (a, values) ← value values left
    if a ≠ 0 then return (1, values)
    let (b, values) ← value values right
    return (ofBool (b ≠ 0), values)
  | binary sign left right => do
    let (a, values) ← value values left
    let (b, values) ← value values right
    return (← operate sign a b, values)
  | choice condition yes no => do
    let (c, values) ← value values condition
    if c ≠ 0 then value values yes else value values no
  | assign name sign operand => do
    let (n, values) ← value values operand
    let n ← if sign = "" then pure n else operate sign (← ofVariable values name) n
    return (n, (name, textOfInt n.toInt) :: values.filter fun v => v.1 ≠ name)

end Arithmetic

/-- The wording of a fault in the text of an expression. -/
def ArithmeticFault.message (text : Octets) : ArithmeticFault → Octets
  | badNumber number => Octets.ofText "Illegal number: " ++ number
  | fault =>
    let cause := match fault with
      | expectingPrimary => "expecting primary"
      | expectingEnd => "expecting EOF"
      | expectingColon => "expecting ':'"
      | expectingParenthesis => "expecting ')'"
      | _ => "division by zero"
    Octets.ofText s!"arithmetic expression: {cause}: \"" ++ text ++ ['"']

end CapabilityPipeline.Shell
