import CapabilityPipeline.Text.Symbol

/-!
# Octets: bytes as characters

A program that takes texts byte by byte, and knows those of ASCII by their letters, sees each byte
as the character of the same number.

Results:

* `Octets.ofBytes`, `Octets.bytes`: octets of bytes and bytes of octets.
* `Octets.ofText`, `Octets.text`: octets of a text, and the text that octets read as.
* `Octets.ofSymbols`, `Octets.symbols`: octets of symbols and symbols of octets.
-/

namespace CapabilityPipeline.Text

/-- Bytes, each as the character of its number. -/
abbrev Octets := List Char

namespace Octets

/-- The octets of bytes. -/
def ofBytes (bytes : List UInt8) : Octets :=
  bytes.map fun b => Char.ofNat b.toNat

/-- The bytes of octets. -/
def bytes (octets : Octets) : List UInt8 :=
  octets.map fun c => UInt8.ofNat c.toNat

/-- The octets of symbols. -/
def ofSymbols (symbols : List Symbol) : Octets :=
  ofBytes (Symbol.encode symbols)

/-- The symbols of octets. -/
def symbols (octets : Octets) : List Symbol :=
  Symbol.decode (bytes octets)

/-- The octets of a text. -/
def ofText (text : String) : Octets :=
  ofSymbols (Symbol.ofText text)

/-- The text of octets, with a replacement character for each broken run. -/
def text (octets : Octets) : String :=
  Symbol.lossy (symbols octets)

end Octets

end CapabilityPipeline.Text
