/-!
# Symbols: text read from bytes

Bytes need not be valid UTF-8. Read as text they are a list of symbols: characters, and broken
runs of bytes where no character can be read. A broken run is as long as a prefix of some
character's encoding can be, and at least one byte.

Results:

* `decode`, `encode`: symbols of bytes and bytes of symbols.
* `ofText`, `text?`: symbols of a text, and the text of symbols that are all characters.
* `lossy`: the text in which each broken run reads as the replacement character.
-/

namespace CapabilityPipeline.Text

/-- A character, or bytes that encode none. -/
inductive Symbol where
  | char (c : Char)
  | broken (bytes : List UInt8)
  deriving DecidableEq, Repr

namespace Symbol

/-- Number of bytes of a symbol. -/
def size : Symbol → Nat
  | char c => c.utf8Size
  | broken bytes => bytes.length

/-- The symbols of a text. -/
def ofText (text : String) : List Symbol :=
  text.toList.map char

/-- The text of symbols, if all are characters. -/
def text? (symbols : List Symbol) : Option String :=
  (symbols.mapM fun
    | char c => some c
    | broken _ => none).map String.ofList

/-- The text of symbols with a replacement character for each broken run. -/
def lossy (symbols : List Symbol) : String :=
  String.ofList <| symbols.map fun
    | char c => c
    | broken _ => Char.ofNat 0xFFFD

/-! ## Bytes -/

/-- Range of the byte after a first byte of a character, and how many continuation bytes
follow in all. None for bytes that start no character. -/
def continuation (first : UInt8) : Option (UInt8 × UInt8 × Nat) :=
  if 0xC2 ≤ first ∧ first ≤ 0xDF then some (0x80, 0xBF, 1)
  else if first = 0xE0 then some (0xA0, 0xBF, 2)
  else if first = 0xED then some (0x80, 0x9F, 2)
  else if 0xE1 ≤ first ∧ first ≤ 0xEF then some (0x80, 0xBF, 2)
  else if first = 0xF0 then some (0x90, 0xBF, 3)
  else if 0xF1 ≤ first ∧ first ≤ 0xF3 then some (0x80, 0xBF, 3)
  else if first = 0xF4 then some (0x80, 0x8F, 3)
  else none

/-- The longest run of continuation bytes, at most as many as are wanted. The first one has a
range of its own. -/
def continuationBytes (low high : UInt8) : Nat → List UInt8 → List UInt8
  | 0, _ => []
  | _, [] => []
  | wanted + 1, b :: rest =>
    if low ≤ b ∧ b ≤ high then b :: continuationBytes 0x80 0xBF wanted rest else []

/-- The character of a first byte and all its continuation bytes. -/
def assemble (first : UInt8) (rest : List UInt8) : Char :=
  let lead := first.toNat % Nat.pow 2 (6 - rest.length)
  Char.ofNat (rest.foldl (fun n b => n * 64 + b.toNat % 64) lead)

/-- The first symbol of a byte and the bytes after it, with the number of bytes that it takes
beyond the first. -/
def next (first : UInt8) (rest : List UInt8) : Symbol × Nat :=
  if first < 0x80 then (char (Char.ofNat first.toNat), 0)
  else match continuation first with
    | none => (broken [first], 0)
    | some (low, high, wanted) =>
      let found := continuationBytes low high wanted rest
      if found.length = wanted then (char (assemble first found), wanted)
      else (broken (first :: found), found.length)

/-- The symbols of bytes. The number counts bytes that belong to the symbol before. -/
def decodeFrom : Nat → List UInt8 → List Symbol
  | _, [] => []
  | skip + 1, _ :: rest => decodeFrom skip rest
  | 0, b :: rest =>
    let (symbol, taken) := next b rest
    symbol :: decodeFrom taken rest

/-- The symbols of bytes. -/
def decode (bytes : List UInt8) : List Symbol :=
  decodeFrom 0 bytes

/-- The bytes of symbols. -/
def encode (symbols : List Symbol) : List UInt8 :=
  symbols.flatMap fun
    | char c => (String.ofList [c]).toUTF8.toList
    | broken bytes => bytes

end Symbol

/-- Number of bytes of a text. -/
def byteCount (cs : List Char) : Nat :=
  cs.foldr (fun c n => c.utf8Size + n) 0

end CapabilityPipeline.Text
