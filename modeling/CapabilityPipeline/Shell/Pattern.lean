import CapabilityPipeline.Text.Octets

/-!
# Patterns

A pattern is a text in which a star stands for any text, a question mark for any character, and
brackets for one of the characters between them. Quoted characters stand for themselves.

Results:

* `Pattern.fits`: a text as a whole fits a pattern.
* `Pattern.start?`, `Pattern.end?`: the part at the start or the end of a text that fits.
-/

namespace CapabilityPipeline.Shell

open Text (Octets)

/-- A character of a word after its expansion. -/
structure Glyph where
  char : Char
  quoted : Bool
  /-- It comes from an expansion outside quotes, so that the field may end here. -/
  splits : Bool
  deriving DecidableEq, Repr

/-- A pattern: characters, some of them quoted. -/
abbrev Pattern := List Glyph

namespace Pattern

/-- Characters between brackets. -/
inductive Item where
  | one (c : Char)
  | range (first last : Char)
  | kind (name : Octets)
  deriving DecidableEq, Repr

/-- A character is of a kind of characters. -/
def isOfKind (name : Octets) (c : Char) : Bool :=
  match String.ofList name with
  | "alpha" => c.isAlpha
  | "digit" => c.isDigit
  | "alnum" => c.isAlphanum
  | "upper" => c.isUpper
  | "lower" => c.isLower
  | "space" => [' ', '\t', '\n', '\x0b', '\x0c', '\r'].contains c
  | "blank" => c = ' ' || c = '\t'
  | "punct" => '!' ≤ c && c ≤ '~' && !c.isAlphanum
  | "xdigit" => c.isDigit || ('a' ≤ c && c ≤ 'f') || ('A' ≤ c && c ≤ 'F')
  | "cntrl" => c < ' ' || c = '\x7f'
  | "print" => ' ' ≤ c && c ≤ '~'
  | "graph" => '!' ≤ c && c ≤ '~'
  | _ => false

/-- An item has a character. -/
def Item.has (c : Char) : Item → Bool
  | one d => c = d
  | range first last => first ≤ c && c ≤ last
  | kind name => isOfKind name c

/-- The items between brackets up to the closing one, and what is after it. A closing bracket
that comes first is an item. The number bounds the items. -/
def itemsAt : (bound : Nat) → (first : Bool) → Pattern → Option (List Item × Pattern)
  | 0, _, _ => none
  | _, _, [] => none
  | bound + 1, first, g :: rest =>
    let chars := rest.map Glyph.char
    if g.char = ']' ∧ !g.quoted ∧ !first then some ([], rest)
    else if g.char = '[' ∧ !g.quoted ∧ chars.head? = some ':' then
      let name := chars.tail.takeWhile Char.isAlpha
      if (chars.drop (name.length + 1)).take 2 = [':', ']'] then
        (itemsAt bound false (rest.drop (name.length + 3))).map
          fun (items, after) => (.kind name :: items, after)
      else (itemsAt bound false rest).map fun (items, after) => (.one '[' :: items, after)
    else match rest with
      | dash :: last :: after =>
        if dash.char = '-' ∧ !dash.quoted ∧ (last.char ≠ ']' ∨ last.quoted) then
          (itemsAt bound false after).map
            fun (items, after) => (.range g.char last.char :: items, after)
        else (itemsAt bound false rest).map
          fun (items, after) => (.one g.char :: items, after)
      | _ => (itemsAt bound false rest).map fun (items, after) => (.one g.char :: items, after)

/-- The test that brackets stand for, after the opening one, and what is after them. -/
def bracketAt (pattern : Pattern) : Option ((Char → Bool) × Pattern) :=
  let negated := pattern.head?.any fun g => (g.char = '!' || g.char = '^') && !g.quoted
  let items := if negated then pattern.tail else pattern
  (itemsAt (items.length + 1) true items).map
    fun (items, after) => (fun c => (items.any fun item => item.has c) != negated, after)

/-- A text as a whole fits a pattern. The number bounds the characters of both. -/
def matchesWithin : (bound : Nat) → Pattern → Octets → Bool
  | 0, _, _ => false
  | _, [], cs => cs.isEmpty
  | bound + 1, g :: pattern, cs =>
    let literal := match cs with
      | c :: rest => c = g.char && matchesWithin bound pattern rest
      | [] => false
    if g.quoted then literal
    else match g.char, cs with
      | '*', [] => matchesWithin bound pattern []
      | '*', _ :: rest =>
        matchesWithin bound pattern cs || matchesWithin bound (g :: pattern) rest
      | '?', _ :: rest => matchesWithin bound pattern rest
      | '[', c :: rest =>
        match bracketAt pattern with
        | some (test, after) => test c && matchesWithin bound after rest
        | none => literal
      | _, _ => literal

/-- A text as a whole fits a pattern. -/
def fits (pattern : Pattern) (text : Octets) : Bool :=
  matchesWithin (pattern.length + text.length + 1) pattern text

/-- How many characters at the start of a text fit, at least or at most. -/
def start? (pattern : Pattern) (longest : Bool) (text : Octets) : Option Nat :=
  let counts := List.range (text.length + 1)
  (if longest then counts.reverse else counts).find? fun n => pattern.fits (text.take n)

/-- How many characters at the end of a text fit, at least or at most. -/
def end? (pattern : Pattern) (longest : Bool) (text : Octets) : Option Nat :=
  let counts := List.range (text.length + 1)
  (if longest then counts.reverse else counts).find? fun n =>
    pattern.fits (text.drop (text.length - n))

/-- A character of the pattern stands for others. -/
def isProper (pattern : Pattern) : Bool :=
  pattern.any fun g => !g.quoted && ['*', '?', '['].contains g.char

end Pattern

end CapabilityPipeline.Shell
