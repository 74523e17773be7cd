import CapabilityPipeline.Names.Map
import CapabilityPipeline.Text.Alphanumeric
import CapabilityPipeline.Text.Blank
import CapabilityPipeline.Text.LowerCase

/-!
# Keywords

The keywords of a text are its words of letters and digits, in lower case, without words of one
character and without words that every text has. A keyword of a query found in a text counts
two half points, and one that only begins like a word there, or the other way round, counts
one.

Results:

* `keywords`: the keywords of a text.
* `overlap`: the half points that a query has in a text.
-/

namespace CapabilityPipeline

/-- Model of `STOPWORDS`: words that say nothing about a text. -/
def stopwords : List String :=
  ["a", "an", "and", "are", "as", "at", "be", "by", "for", "from", "in", "into", "is", "it", "me",
    "my", "of", "on", "or", "please", "the", "this", "to", "with"]

/-- A text in lower case. -/
def lowerCased (text : String) : String :=
  String.ofList (Text.lowerCase text.toList)

/-- Part of `keywords`: the words of a text that have at least two characters, in lower case. -/
def longWords (text : String) : List String :=
  ((Text.splitAt (fun c => !Text.isAlphanumeric c) text.toList).filter fun word =>
    2 ≤ word.length).map fun word => String.ofList (Text.lowerCase word)

/-- Model of `keywords`: the keywords of a text. -/
def keywords (text : String) : NameSet :=
  NameSet.ofNames ((longWords text).filter fun word => !stopwords.contains word)

/-- Model of `shares_prefix`: the shorter word has at least four characters and the longer one
begins with it. -/
def sharesStem (a b : String) : Bool :=
  let (short, long) := if a.utf8ByteSize ≤ b.utf8ByteSize then (a, b) else (b, a)
  4 ≤ short.toList.length && short.toList.isPrefixOf long.toList

/-- Part of `overlap`: the half points of one keyword of a query in a text. -/
def keywordScore (text : NameSet) (word : String) : Nat :=
  if text.contains word then 2
  else if text.keys.any fun other => sharesStem word other then 1
  else 0

/-- Model of `overlap`: the half points of a query in a text. -/
def overlap (query text : NameSet) : Nat :=
  query.keys.foldr (fun word n => keywordScore text word + n) 0

end CapabilityPipeline
