import CapabilityPipeline.Json.Reader
import CapabilityPipeline.Json.Shape

/-!
# Finding what is wrong with a text

A text from which no data could be read is gone through from its start, with the shape that was
expected at hand, up to the first thing that is wrong: a fault of the text or a mismatch. A
mismatch is placed where the reading stands when it shows. One that concerns a record as a whole
is placed after the bracket that closes the record, if that comes next.

Results:

* `Shape.diagnose`: the first thing that is wrong with a text.
-/

namespace CapabilityPipeline.Json

open Text (Symbol)

/-- Something wrong with a text, and where. -/
structure Problem where
  cause : Cause ⊕ Mismatch
  /-- What was left of the text. -/
  rest : List Symbol
  /-- How many bytes of the next symbol count as read. -/
  extra : Nat
  /-- The place is final. -/
  placed : Bool

/-- What is left of a text after a part with nothing wrong. -/
abbrev Checked := Except Problem

namespace Problem

/-- A fault of the text. -/
def ofFault (fault : Fault) : Problem :=
  ⟨.inl fault.cause, fault.rest, fault.extra, true⟩

/-- A mismatch that shows where the text is left. -/
def mismatch (m : Mismatch) (rest : List Symbol) : Problem :=
  ⟨.inr m, rest, 0, true⟩

/-- A mismatch of the record that is being read. -/
def ofRecord (m : Mismatch) (rest : List Symbol) : Problem :=
  ⟨.inr m, rest, 0, false⟩

/-- The place after the end of an object, if that comes next. -/
def afterObject (rest : List Symbol) : List Symbol :=
  match skipSpace rest with
  | .char '\x7d' :: rest => rest
  | rest => rest

/-- The place after the end of an array, if that comes next. -/
def afterArray (rest : List Symbol) : List Symbol :=
  match skipSpace rest with
  | .char ']' :: rest => rest
  | .char ',' :: rest => skipSpace rest
  | rest => rest

/-- The problem with a final place. -/
def settle (after : List Symbol → List Symbol) (p : Problem) : Problem :=
  if p.placed then p else { p with rest := after p.rest, placed := true }

/-- The problem with its position in the whole text. -/
def located (p : Problem) (text : List Symbol) : DataError :=
  let at' (cause : Cause) : Located := (⟨cause, p.rest, p.extra⟩ : Fault).located text
  match p.cause with
  | .inl cause => .malformed (at' cause)
  | .inr m => .mismatch m (at' .expectedValue).line (at' .expectedValue).column

end Problem

/-! ## Parts of a text -/

/-- A reading whose faults are problems. -/
def checked {α : Type} (result : Except Fault α) : Checked α :=
  result.mapError Problem.ofFault

/-- What a text begins with, when something else is expected. Brackets are not looked into. -/
def unexpected {α : Type} (expected : String) (text : List Symbol) : Checked α := do
  let mismatch (found : Found) (rest : List Symbol) : Checked α :=
    .error (.mismatch (.type found expected) rest)
  match skipSpace text with
  | [] => checked (Fault.peeked .endInValue [])
  | .char 'n' :: rest => mismatch .null (← checked (readWord ['u', 'l', 'l'] rest))
  | .char 't' :: rest => mismatch (.boolean true) (← checked (readWord ['r', 'u', 'e'] rest))
  | .char 'f' :: rest =>
    mismatch (.boolean false) (← checked (readWord ['a', 'l', 's', 'e'] rest))
  | .char '"' :: rest =>
    let (chars, rest) ← checked (readChars false rest)
    mismatch (.string (String.ofList (chars.getD []))) rest
  | .char '[' :: rest => mismatch .sequence (.char '[' :: rest)
  | .char '\x7b' :: rest => mismatch .map (.char '\x7b' :: rest)
  | s :: rest =>
    if startsNumber s then
      let (n, rest) ← checked (readNumber false (s :: rest))
      mismatch (n.elim .null .number) rest
    else checked (Fault.peeked .expectedValue (s :: rest))

/-- A string, where one is expected. -/
def expectString (expected : String) (text : List Symbol) : Checked (String × List Symbol) :=
  match skipSpace text with
  | .char '"' :: rest => do
    let (chars, rest) ← checked (readChars false rest)
    return (String.ofList (chars.getD []), rest)
  | rest => unexpected expected rest

/-- One of several words, where one is expected. -/
def expectWord (words : List String) (text : List Symbol) : Checked (String × List Symbol) := do
  let (word, rest) ← expectString "variant identifier" text
  if words.contains word then return (word, rest)
  else throw (.mismatch (.unknownWord word words) rest)

/-- The rest after a colon. -/
def expectColon (text : List Symbol) : Checked (List Symbol) :=
  match skipSpace text with
  | .char ':' :: rest => .ok rest
  | [] => checked (Fault.peeked .endInObject [])
  | rest => checked (Fault.peeked .expectedColon rest)

/-- The name of the next member, or the end of the object. -/
def nextName (first : Bool) (text : List Symbol) :
    Checked (Option String × List Symbol) := do
  let name (rest : List Symbol) : Checked (Option String × List Symbol) := do
    let (chars, rest) ← checked (readChars false rest)
    return (some (String.ofList (chars.getD [])), rest)
  match skipSpace text with
  | [] => checked (Fault.peeked .endInObject [])
  | .char '\x7d' :: rest => return (none, rest)
  | rest =>
    if first then
      match rest with
      | .char '"' :: rest => name rest
      | rest => checked (Fault.peeked .keyNotString rest)
    else match rest with
      | .char ',' :: rest =>
        match skipSpace rest with
        | [] => checked (Fault.peeked .endInValue [])
        | .char '"' :: rest => name rest
        | .char '\x7d' :: rest => checked (Fault.peeked .trailingComma (.char '\x7d' :: rest))
        | rest => checked (Fault.peeked .keyNotString rest)
      | rest => checked (Fault.peeked .expectedObjectEnd rest)

/-- The start of the next item, or the end of the array. -/
def nextItem (first : Bool) (text : List Symbol) : Checked (Bool × List Symbol) :=
  match skipSpace text with
  | [] => checked (Fault.peeked .endInList [])
  | .char ']' :: rest => .ok (false, rest)
  | rest =>
    if first then .ok (true, rest)
    else match rest with
      | .char ',' :: rest =>
        match skipSpace rest with
        | [] => checked (Fault.peeked .endInValue [])
        | .char ']' :: rest => checked (Fault.peeked .trailingComma (.char ']' :: rest))
        | rest => .ok (true, rest)
      | rest => checked (Fault.peeked .expectedListEnd rest)

/-- The end of an array that has all the items it can have. -/
def endOfArray (text : List Symbol) : Checked (List Symbol) :=
  match skipSpace text with
  | [] => checked (Fault.peeked .endInList [])
  | .char ']' :: rest => .ok rest
  | .char ',' :: rest =>
    match skipSpace rest with
    | .char ']' :: rest => checked (Fault.peeked .trailingComma (.char ']' :: rest))
    | rest => checked (Fault.peeked .trailingCharacters rest)
  | rest => checked (Fault.peeked .trailingCharacters rest)

/-- A container may be opened. -/
def openable (room : Nat) (text : List Symbol) : Checked Unit :=
  if room = 0 then checked (Fault.peeked .nestedTooDeep text) else .ok ()

/-! ## Records with a kind -/

/-- What a tree is found to be. -/
def Tree.found : Tree → Found
  | .null => .null
  | .bool b => .boolean b
  | .number n => .number n
  | .string s => .string s
  | .array _ => .sequence
  | _ => .map

/-- The tree is a string. -/
def Tree.isString : Tree → Bool
  | .string _ => true
  | _ => false

/-- The first mismatch of the fields of a kind among members, each read in turn. -/
def KindShape.mismatchOfMembers (kind : KindShape) (members : List (String × Tree)) :
    Option Mismatch :=
  let known := members.filter fun m => kind.fields.contains m.1
  let rec inOrder (seen : List String) : List (String × Tree) → Option Mismatch
    | [] => (kind.fields.find? fun name => !seen.contains name).map .missingField
    | (name, tree) :: rest =>
      if seen.contains name then some (.repeatedField name)
      else match tree with
        | .string _ => inOrder (name :: seen) rest
        | tree => some (.type tree.found "a string")
  inOrder [] known

/-- The first mismatch of the fields of a kind among items. -/
def KindShape.mismatchOfItems (kind : KindShape) (items : List Tree) : Option Mismatch :=
  let wanted := kind.fields.length
  match (items.take wanted).find? fun tree => !tree.isString with
  | some tree => some (.type tree.found "a string")
  | none =>
    if items.length < wanted then
      some (.length items.length s!"struct variant {kind.title} with {wanted} elements")
    else if wanted < items.length then
      some (.length items.length s!"{wanted} elements in sequence")
    else none

/-! ## Texts and shapes -/

mutual

/-- The rest after a part of a text that has a shape. The first argument bounds the work. -/
def Shape.check : Nat → Shape → (room : Nat) → List Symbol → Checked (List Symbol)
  | 0, _, _, _ => checked (Fault.here .endInValue [])
  | work + 1, shape, room, text =>
    let text := skipSpace text
    match shape, text with
    | .string, text => (expectString "a string" text).map Prod.snd
    | .boolean, .char 't' :: rest => checked (readWord ['r', 'u', 'e'] rest)
    | .boolean, .char 'f' :: rest => checked (readWord ['a', 'l', 's', 'e'] rest)
    | .boolean, text => unexpected "a boolean" text
    | .natural, s :: rest =>
      if startsNumber s then do
        let (n, rest) ← checked (readNumber false (s :: rest))
        match n with
        | some (.integer value h) =>
          if 0 ≤ value then return rest
          else throw (.mismatch (.value (.number (.integer value h)) "u64") rest)
        | some n => throw (.mismatch (.type (.number n) "u64") rest)
        | none => return rest
      else unexpected "u64" (s :: rest)
    | .natural, [] => unexpected "u64" []
    | .optional _, .char 'n' :: rest => checked (readWord ['u', 'l', 'l'] rest)
    | .optional part, text => part.check work room text
    | .list item, .char '[' :: rest => do
      openable room (.char '[' :: rest)
      Shape.checkItems work item (room - 1) true rest
    | .list _, text => unexpected "a sequence" text
    | .map part, .char '\x7b' :: rest => do
      openable room (.char '\x7b' :: rest)
      Shape.checkMembers work part (room - 1) true rest
    | .map _, text => unexpected "a map" text
    | .word words, .char '"' :: rest => (expectWord words (.char '"' :: rest)).map Prod.snd
    | .word words, .char '\x7b' :: rest => do
      openable room (.char '\x7b' :: rest)
      let (_, rest) ← match skipSpace rest with
        | [] => checked (Fault.peeked .endInObject [])
        | .char '"' :: rest => expectWord words (.char '"' :: rest)
        | rest => checked (Fault.peeked .keyNotString rest)
      match skipSpace (← expectColon rest) with
      | .char 'n' :: rest =>
        match skipSpace (← checked (readWord ['u', 'l', 'l'] rest)) with
        | .char '\x7d' :: rest => return rest
        | [] => checked (Fault.here .endInObject [])
        | rest => checked (Fault.here .expectedValue rest)
      | rest => unexpected "unit" rest
    | .word _, [] => checked (Fault.peeked .endInValue [])
    | .word _, text => checked (Fault.peeked .expectedValue text)
    | .record _ fields, .char '\x7b' :: rest => do
      openable room (.char '\x7b' :: rest)
      (Shape.checkFields work fields (room - 1) [] rest).mapError
        (Problem.settle Problem.afterObject)
    | .record _ fields, .char '[' :: rest => do
      openable room (.char '[' :: rest)
      (Shape.checkPositions work fields (room - 1) true rest).mapError
        (Problem.settle Problem.afterArray)
    | .record title _, text => unexpected s!"struct {title}" text
    | .tagged _ tag kinds, .char '\x7b' :: rest => do
      openable room (.char '\x7b' :: rest)
      let (found, members, rest) ←
        (Shape.checkTagged work tag kinds (room - 1) none [] rest).mapError
          (Problem.settle Problem.afterObject)
      match (kinds.find? fun kind => kind.word = found).bind
          fun kind => kind.mismatchOfMembers members with
      | some m => throw (.ofRecord m rest)
      | none => return rest
    | .tagged _ tag kinds, .char '[' :: rest => do
      openable room (.char '[' :: rest)
      let (found, items, rest) ← (do
        match ← nextItem true rest with
        | (false, rest) => throw (.ofRecord (.missingField tag) (.char ']' :: rest))
        | (true, rest) =>
          let (found, rest) ← expectWord (kinds.map KindShape.word) rest
          match ← Shape.collectItems work (room - 1) rest with
          | (items, rest) => return (found, items, rest) : Checked _).mapError
            (Problem.settle Problem.afterArray)
      match (kinds.find? fun kind => kind.word = found).bind
          fun kind => kind.mismatchOfItems items with
      | some m => throw (.ofRecord m rest)
      | none => return rest
    | .tagged title _ _, text => unexpected s!"internally tagged enum {title}" text

/-- The rest after the items of a list. -/
def Shape.checkItems : Nat → Shape → (room : Nat) → (first : Bool) → List Symbol →
    Checked (List Symbol)
  | 0, _, _, _, _ => checked (Fault.here .endInValue [])
  | work + 1, item, room, first, text => do
    match ← nextItem first text with
    | (false, rest) => return rest
    | (true, rest) =>
      let rest ← item.check work room rest
      Shape.checkItems work item room false rest

/-- The rest after the members of a map. -/
def Shape.checkMembers : Nat → Shape → (room : Nat) → (first : Bool) → List Symbol →
    Checked (List Symbol)
  | 0, _, _, _, _ => checked (Fault.here .endInValue [])
  | work + 1, part, room, first, text => do
    match ← nextName first text with
    | (none, rest) => return rest
    | (some _, rest) =>
      let rest ← part.check work room (← expectColon rest)
      Shape.checkMembers work part room false rest

/-- The rest after the fields of a record by name, given those that have been read. None has
been read before the first. -/
def Shape.checkFields : Nat → List (String × Shape) → (room : Nat) → (seen : List String) →
    List Symbol → Checked (List Symbol)
  | 0, _, _, _, _ => checked (Fault.here .endInValue [])
  | work + 1, fields, room, seen, text => do
    match ← nextName seen.isEmpty text with
    | (none, rest) => return rest
    | (some name, rest) =>
      match fields.find? fun field => field.1 = name with
      | some (_, shape) =>
        if seen.contains name then throw (.ofRecord (.repeatedField name) rest)
        else
          let rest ← shape.check work room (← expectColon rest)
          Shape.checkFields work fields room (name :: seen) rest
      | none =>
        let (_, rest) ← checked (readTree .lenient work room (← expectColon rest))
        Shape.checkFields work fields room (name :: seen) rest

/-- The rest after the fields of a record in order, of which the last may be left out. -/
def Shape.checkPositions : Nat → List (String × Shape) → (room : Nat) → (first : Bool) →
    List Symbol → Checked (List Symbol)
  | 0, _, _, _, _ => checked (Fault.here .endInValue [])
  | _, [], _, _, text => endOfArray text
  | work + 1, (_, shape) :: fields, room, first, text => do
    match ← nextItem first text with
    | (false, rest) => return rest
    | (true, rest) =>
      let rest ← shape.check work room rest
      Shape.checkPositions work fields room false rest

/-- The kind of a record, its other members, and the rest, given what has been read. -/
def Shape.checkTagged : Nat → (tag : String) → List KindShape → (room : Nat) →
    (kind : Option String) → (members : List (String × Tree)) → List Symbol →
    Checked (String × List (String × Tree) × List Symbol)
  | 0, _, _, _, _, _, _ => checked (Fault.here .endInValue [])
  | work + 1, tag, kinds, room, kind, members, text => do
    match ← nextName (kind.isNone && members.isEmpty) text with
    | (none, rest) =>
      match kind with
      | some kind => return (kind, members, rest)
      | none => throw (.ofRecord (.missingField tag) (.char '\x7d' :: rest))
    | (some name, rest) =>
      if name = tag then
        if kind.isSome then throw (.ofRecord (.repeatedField tag) rest)
        else
          let (found, rest) ← expectWord (kinds.map KindShape.word) (← expectColon rest)
          Shape.checkTagged work tag kinds room (some found) members rest
      else
        let (tree, rest) ← checked (readTree .strict work room (← expectColon rest))
        Shape.checkTagged work tag kinds room kind (members ++ [(name, tree)]) rest

/-- The items after the first of an array, and the rest. -/
def Shape.collectItems : Nat → (room : Nat) → List Symbol → Checked (List Tree × List Symbol)
  | 0, _, _ => checked (Fault.here .endInValue [])
  | work + 1, room, text => do
    match ← nextItem false text with
    | (false, rest) => return ([], rest)
    | (true, rest) =>
      let (tree, rest) ← checked (readTree .strict work room rest)
      let (others, rest) ← Shape.collectItems work room rest
      return (tree :: others, rest)

end

/-- The first thing that is wrong with a text that was expected to have a shape. A text of that
shape has too much in it. -/
def Shape.diagnose (shape : Shape) (text : List Symbol) : DataError :=
  match shape.check (2 * text.length + 8) maxDepth text with
  | .error p => p.located text
  | .ok rest =>
    (Problem.ofFault (Fault.after .trailingCharacters 1 (skipSpace rest))).located text

end CapabilityPipeline.Json
