import CapabilityPipeline.Json.Decode
import CapabilityPipeline.Proofs.Json.RoundTrip
import CapabilityPipeline.Proofs.Source.Enclosed

/-!
# How far a value reaches

What a strict reader takes from the front of a text is an enclosed text: its string literals end
and its brackets match. So a scanner that knows nothing of JSON but literals and brackets finds
the end of an object.

Results:

* `Passes`: between two places of a text stands an enclosed text.
* `readsEnclosed`: a strict reader passes over an enclosed text.
* `Value.enclosed_of_read_object`: the text of an object is an enclosed text in braces.
* `readChars_of_readChars`: every reader reads the same strings.
* `decode_quote_eq_ok_iff`: a text from a quote on is the text of a string, whoever reads it.
-/

namespace CapabilityPipeline.Json

open Source
open Text (Symbol)

/-! ## Places in a text -/

/-- An enclosed text stands between the place where a text begins and the place where another
does. -/
def Passes (text rest : List Symbol) : Prop :=
  ∃ front, Enclosed (fun _ => true) front ∧ text = symbols front ++ rest

/-- A literal that has begun ends between two places. -/
def EndsLiteral (text rest : List Symbol) : Prop :=
  ∃ body, LiteralText body ∧ text = symbols body ++ .char '"' :: rest

namespace Passes

theorem refl (text : List Symbol) : Passes text text :=
  ⟨[], .nil, rfl⟩

theorem trans {text between rest : List Symbol} (h : Passes text between)
    (h' : Passes between rest) : Passes text rest := by
  obtain ⟨front, enclosed, rfl⟩ := h
  obtain ⟨front', enclosed', rfl⟩ := h'
  exact ⟨front ++ front', enclosed.append enclosed', by rw [symbols_append, List.append_assoc]⟩

theorem char {c : Char} {text rest : List Symbol} (quiet : isQuiet c = true)
    (h : Passes text rest) : Passes (.char c :: text) rest := by
  obtain ⟨front, enclosed, rfl⟩ := h
  exact ⟨c :: front, .quiet quiet rfl enclosed, rfl⟩

theorem literal {text rest : List Symbol} (h : EndsLiteral text rest) :
    Passes (.char '"' :: text) rest := by
  obtain ⟨body, literal, rfl⟩ := h
  exact ⟨'"' :: (body ++ ['"']), .literal literal .nil, by simp⟩

theorem bracket (b : Bracket) {text rest : List Symbol}
    (h : Passes text (.char b.closer :: rest)) : Passes (.char b.opener :: text) rest := by
  obtain ⟨inner, enclosed, rfl⟩ := h
  exact ⟨b.opener :: (inner ++ [b.closer]), .bracketed b enclosed, by simp⟩

end Passes

/-! ## Strings -/

namespace EndsLiteral

variable {text rest : List Symbol}

theorem done (rest : List Symbol) : EndsLiteral (.char '"' :: rest) rest :=
  ⟨[], .nil, rfl⟩

theorem char {c : Char} (quote : c ≠ '"') (backslash : c ≠ '\\') (h : EndsLiteral text rest) :
    EndsLiteral (.char c :: text) rest := by
  obtain ⟨body, literal, rfl⟩ := h
  exact ⟨c :: body, .char quote backslash literal, rfl⟩

theorem escape (c : Char) (h : EndsLiteral text rest) :
    EndsLiteral (.char '\\' :: .char c :: text) rest := by
  obtain ⟨body, literal, rfl⟩ := h
  exact ⟨'\\' :: c :: body, .escape literal, rfl⟩

/-- A hexadecimal digit does not end a literal. -/
theorem digit {s : Symbol} {n : Nat} (isDigit : hexValue? s = some n)
    (h : EndsLiteral text rest) : EndsLiteral (s :: text) rest := by
  cases s with
  | broken bytes => cases isDigit
  | char c =>
    refine h.char ?_ ?_
    · rintro rfl
      cases isDigit
    · rintro rfl
      cases isDigit

/-- An escape by four digits. -/
theorem unicode {a b c d : Symbol} {n : Nat} (number : hexNumber? a b c d = some n)
    (h : EndsLiteral text rest) :
    EndsLiteral (.char '\\' :: .char 'u' :: a :: b :: c :: d :: text) rest := by
  unfold hexNumber? at number
  simp only [Option.bind_eq_bind, Option.bind_eq_some_iff] at number
  obtain ⟨_, first, _, second, _, third, _, fourth, -⟩ := number
  exact escape 'u' ((((h.digit fourth).digit third).digit second).digit first)

end EndsLiteral

/-- The characters up to the end of a literal, none of which is missing. -/
def ReadsLiteral (text rest : List Symbol) (chars : Option (List Char)) : Prop :=
  EndsLiteral text rest ∧ ∃ cs, chars = some cs

/-- A character in front of the literal read after it. -/
theorem readsLiteral_consChar {c : Char} {text rest : List Symbol} {chars : Option (List Char)}
    (ih : ∀ {chars}, readChars false text = .ok (chars, rest) → ReadsLiteral text rest chars)
    (h : (do return consChar c (← readChars false text)) = .ok (chars, rest)) :
    ReadsLiteral text rest chars := by
  obtain ⟨⟨others, after⟩, read, same⟩ := bind_eq_ok.mp h
  cases others with
  | none =>
    cases same
    obtain ⟨-, cs, missing⟩ := ih read
    cases missing
  | some cs =>
    cases same
    exact ⟨(ih read).1, c :: cs, rfl⟩

/-- **The characters of a literal are read up to the quote that ends it.** -/
theorem readsLiteral_of_readChars {text rest : List Symbol} {chars : Option (List Char)}
    (h : readChars false text = .ok (chars, rest)) : ReadsLiteral text rest chars := by
  fun_induction readChars false text generalizing chars
  case case6 =>
    cases h
    exact ⟨.done rest, [], rfl⟩
  case case11 first _ _ _ _ _ _ _ _ second _ _ _ ih =>
    obtain ⟨ends, some⟩ := readsLiteral_consChar ih h
    exact ⟨(ends.unicode second).unicode first, some⟩
  case case15 number _ _ _ ih =>
    obtain ⟨ends, some⟩ := readsLiteral_consChar ih h
    exact ⟨ends.unicode number, some⟩
  case case19 c text _ _ _ _ ih =>
    obtain ⟨ends, some⟩ := readsLiteral_consChar ih h
    exact ⟨ends.escape c, some⟩
  case case22 c text quote _ _ atEnd broken escape _ ih =>
    obtain ⟨ends, some⟩ := readsLiteral_consChar ih h
    have backslash : c ≠ '\\' := by
      cases text with
      | nil => exact atEnd rfl
      | cons s text =>
        cases s with
        | char d => exact escape d text rfl
        | broken bytes => exact broken bytes text rfl
    exact ⟨ends.char quote backslash, some⟩
  -- In all other cases the reader finds a fault, or skips what a strict one does not.
  all_goals contradiction

/-! ## Spaces, words and numbers -/

theorem isQuiet_of_isSpace {c : Char} (h : isSpace (.char c) = true) : isQuiet c = true :=
  isQuiet_of_class (fun c => isSpace (.char c)) (by decide) h

/-- What is skipped is a gap. -/
theorem eq_gap_skipSpace (text : List Symbol) :
    ∃ gap, Gap gap ∧ text = symbols gap ++ skipSpace text := by
  induction text with
  | nil => exact ⟨[], gap_nil, rfl⟩
  | cons s text ih =>
    rw [skipSpace, List.dropWhile_cons]
    split
    · next space =>
      cases s with
      | char c =>
        obtain ⟨gap, spaces, same⟩ := ih
        exact ⟨c :: gap, List.forall_mem_cons.mpr ⟨space, spaces⟩,
          congrArg (Symbol.char c :: ·) same⟩
      | broken bytes => cases space
    · exact ⟨[], gap_nil, rfl⟩

theorem passes_skipSpace (text : List Symbol) : Passes text (skipSpace text) := by
  obtain ⟨gap, spaces, same⟩ := eq_gap_skipSpace text
  exact ⟨gap, .of_quiet fun c hc => ⟨isQuiet_of_isSpace (spaces c hc), rfl⟩, same⟩

theorem passes_readWord {word : List Char} {text rest : List Symbol}
    (quiet : word.all isQuiet = true) (h : readWord word text = .ok rest) : Passes text rest := by
  induction word generalizing text with
  | nil =>
    cases h
    exact .refl _
  | cons c word ih =>
    cases text with
    | nil => cases h
    | cons s text =>
      rw [List.all_cons, Bool.and_eq_true] at quiet
      rw [readWord] at h
      split at h
      · next same =>
        rw [same]
        exact (ih quiet.2 h).char quiet.1
      · cases h

theorem passes_readDigits (text : List Symbol) : Passes text (readDigits text).2 := by
  induction text with
  | nil => exact .refl []
  | cons s text ih =>
    rw [readDigits]
    split
    · next d isDigit =>
      cases s with
      | broken bytes => cases isDigit
      | char c =>
        refine ih.char (isQuiet_of_class (fun c => '0' ≤ c ∧ c ≤ '9') (by decide) ?_)
        rw [digitValue?] at isDigit
        split at isDigit
        · next range => exact decide_eq_true range
        · cases isDigit
    · exact .refl _

theorem passes_readWhole {text rest : List Symbol} {digits : List Nat}
    (h : readWhole false text = .ok (digits, rest)) : Passes text rest := by
  have passes := passes_readDigits text
  unfold readWhole at h
  split at h
  · cases h
  · cases h
  · next found =>
    cases h
    rwa [found] at passes
  · cases h
  · next found =>
    cases h
    rwa [found] at passes

/-- After a character of numbers, digits that are not missing. -/
theorem passes_someDigits {α : Type} {text rest : List Symbol} {cause : Cause}
    {result : List Nat → α} {found : α}
    (h : (match readDigits text with
      | ([], []) => Fault.here cause []
      | ([], rest) => Fault.peeked .invalidNumber rest
      | (digits, rest) => .ok (result digits, rest)) = Except.ok (found, rest)) :
    Passes text rest := by
  have passes := passes_readDigits text
  split at h
  · cases h
  · cases h
  · next found =>
    cases h
    rwa [found] at passes

theorem passes_readFraction {text rest : List Symbol} {fraction : Option (List Nat)}
    (h : readFraction false text = .ok (fraction, rest)) : Passes text rest := by
  unfold readFraction at h
  split at h
  · exact (passes_someDigits h).char rfl
  · cases h
    exact .refl _

theorem passes_readExponent {text rest : List Symbol} {exponent : Option (Bool × List Nat)}
    (h : readExponent false text = .ok (exponent, rest)) : Passes text rest := by
  unfold readExponent at h
  dsimp only at h
  split at h
  · split at h
    · exact ((passes_someDigits h).char rfl).char rfl
    · exact ((passes_someDigits h).char rfl).char rfl
    · exact (passes_someDigits h).char rfl
  · split at h
    · exact ((passes_someDigits h).char rfl).char rfl
    · exact ((passes_someDigits h).char rfl).char rfl
    · exact (passes_someDigits h).char rfl
  · cases h
    exact .refl _

theorem passes_readNumber {text rest : List Symbol} {number : Option Number}
    (h : readNumber false text = .ok (number, rest)) : Passes text rest := by
  unfold readNumber at h
  obtain ⟨⟨whole, _⟩, readsWhole, h⟩ := bind_eq_ok.mp h
  obtain ⟨⟨fraction, _⟩, readsFraction, h⟩ := bind_eq_ok.mp h
  obtain ⟨⟨exponent, after⟩, readsExponent, h⟩ := bind_eq_ok.mp h
  have later := (passes_readWhole readsWhole).trans
    ((passes_readFraction readsFraction).trans (passes_readExponent readsExponent))
  have ends : Passes text after := by
    split at later
    · exact later.char rfl
    · exact later
  dsimp only at h
  split at h
  · cases h
    exact ends
  · cases h

/-! ## Values -/

/-- With a bound on the work, a strict reader passes over an enclosed text, in arrays and objects
up to the bracket that closes them. The members of an object are read from inside the first
name. -/
structure ReadsEnclosed (work : Nat) : Prop where
  tree : ∀ {room text tree rest}, readTree .strict work room text = .ok (tree, rest) →
    Passes text rest
  items : ∀ {room text tree rest}, readItems .strict work room text = .ok (tree, rest) →
    Passes text (.char ']' :: rest)
  members : ∀ {room text tree rest}, readMembers .strict work room text = .ok (tree, rest) →
    Passes (.char '"' :: text) (.char '\x7d' :: rest)

/-- What stands behind spaces. -/
theorem passes_of_skipSpace {text between rest : List Symbol} (same : skipSpace text = between)
    (h : Passes between rest) : Passes text rest :=
  (passes_skipSpace text).trans (same ▸ h)

namespace ReadsEnclosed

variable {work room : Nat} {text rest : List Symbol} {tree : Tree}

theorem array (ih : ReadsEnclosed work)
    (h : (match skipSpace text with
      | [] => Fault.peeked .endInList []
      | .char ']' :: rest => .ok (tooDeep room (.array []), rest)
      | rest => do
        let (tree, rest) ← readItems .strict work (room - 1) rest
        .ok (tooDeep room tree, rest)) = .ok (tree, rest)) :
    Passes (.char '[' :: text) rest := by
  refine .bracket .square ?_
  split at h
  · cases h
  · next same =>
    cases h
    exact passes_of_skipSpace same (.refl _)
  · obtain ⟨⟨items, _⟩, read, h⟩ := bind_eq_ok.mp h
    cases h
    exact passes_of_skipSpace rfl (ih.items read)

theorem object (ih : ReadsEnclosed work)
    (h : (match skipSpace text with
      | [] => Fault.peeked .endInObject []
      | .char '\x7d' :: rest => .ok (tooDeep room (.object []), rest)
      | .char '"' :: rest => do
        let (tree, rest) ← readMembers .strict work (room - 1) rest
        .ok (tooDeep room tree, rest)
      | rest => Fault.peeked .keyNotString rest) = .ok (tree, rest)) :
    Passes text (.char '\x7d' :: rest) := by
  split at h
  · cases h
  · next same =>
    cases h
    exact passes_of_skipSpace same (.refl _)
  · next same =>
    obtain ⟨⟨members, _⟩, read, h⟩ := bind_eq_ok.mp h
    cases h
    exact passes_of_skipSpace same (ih.members read)
  · cases h

theorem readTree_succ (ih : ReadsEnclosed work)
    (h : readTree .strict (work + 1) room text = .ok (tree, rest)) : Passes text rest := by
  rw [readTree] at h
  split at h
  · cases h
  · next same =>
    obtain ⟨_, read, h⟩ := bind_eq_ok.mp h
    cases h
    exact passes_of_skipSpace same ((passes_readWord rfl read).char rfl)
  · next same =>
    obtain ⟨_, read, h⟩ := bind_eq_ok.mp h
    cases h
    exact passes_of_skipSpace same ((passes_readWord rfl read).char rfl)
  · next same =>
    obtain ⟨_, read, h⟩ := bind_eq_ok.mp h
    cases h
    exact passes_of_skipSpace same ((passes_readWord rfl read).char rfl)
  · next same =>
    obtain ⟨⟨chars, _⟩, read, h⟩ := bind_eq_ok.mp h
    cases h
    exact passes_of_skipSpace same (.literal (readsLiteral_of_readChars read).1)
  · next same =>
    split at h
    · cases h
    · exact passes_of_skipSpace same (ih.array h)
  · next same =>
    split at h
    · cases h
    · exact passes_of_skipSpace same (.bracket .curly (ih.object h))
  · next same =>
    split at h
    · obtain ⟨⟨n, _⟩, read, h⟩ := bind_eq_ok.mp h
      cases h
      exact passes_of_skipSpace same (passes_readNumber read)
    · cases h

theorem readItems_succ (ih : ReadsEnclosed work)
    (h : readItems .strict (work + 1) room text = .ok (tree, rest)) :
    Passes text (.char ']' :: rest) := by
  rw [readItems] at h
  obtain ⟨⟨item, after⟩, read, h⟩ := bind_eq_ok.mp h
  refine (ih.tree read).trans ?_
  dsimp only at h
  split at h
  · cases h
  · next same =>
    cases h
    exact passes_of_skipSpace same (.refl _)
  · next same =>
    split at h
    · cases h
    · cases h
    · obtain ⟨⟨others, _⟩, read, h⟩ := bind_eq_ok.mp h
      cases h
      exact passes_of_skipSpace same (.char rfl (passes_of_skipSpace rfl (ih.items read)))
  · cases h

theorem readMembers_succ (ih : ReadsEnclosed work)
    (h : readMembers .strict (work + 1) room text = .ok (tree, rest)) :
    Passes (.char '"' :: text) (.char '\x7d' :: rest) := by
  rw [readMembers] at h
  obtain ⟨⟨name, afterName⟩, named, h⟩ := bind_eq_ok.mp h
  obtain ⟨⟨value, after⟩, read, h⟩ := bind_eq_ok.mp h
  have passesName : Passes (.char '"' :: text) afterName := by
    unfold readName at named
    obtain ⟨⟨chars, quoted⟩, read, named⟩ := bind_eq_ok.mp named
    have literal : Passes (.char '"' :: text) quoted := .literal (readsLiteral_of_readChars read).1
    dsimp only at named
    split at named
    · next same =>
      cases named
      exact literal.trans (passes_of_skipSpace same (.char rfl (.refl _)))
    · cases named
    · cases named
  refine passesName.trans ((ih.tree read).trans ?_)
  dsimp only at h
  split at h
  · cases h
  · next same =>
    cases h
    exact passes_of_skipSpace same (.refl _)
  · next same =>
    split at h
    · cases h
    · next same' =>
      obtain ⟨⟨others, _⟩, read, h⟩ := bind_eq_ok.mp h
      cases h
      exact passes_of_skipSpace same (.char rfl (passes_of_skipSpace same' (ih.members read)))
    · cases h
    · cases h
  · cases h

end ReadsEnclosed

/-- **A strict reader passes over an enclosed text.** -/
theorem readsEnclosed (work : Nat) : ReadsEnclosed work := by
  induction work with
  | zero =>
    refine ⟨fun h => ?_, fun h => ?_, fun h => ?_⟩
    · rw [readTree] at h
      cases h
    · rw [readItems] at h
      cases h
    · rw [readMembers] at h
      cases h
  | succ work ih => exact ⟨ih.readTree_succ, ih.readItems_succ, ih.readMembers_succ⟩

/-! ## Objects and strings -/

theorem ne_object_of_readItems {work room : Nat} {text rest : List Symbol} {tree : Tree}
    {members : Object} (h : readItems .strict work room text = .ok (tree, rest)) :
    tree.toValue ≠ .object members := by
  have consItem_ne (tree others : Tree) : (consItem tree others).toValue ≠ .object members := by
    unfold consItem
    split <;> exact Value.noConfusion
  cases work with
  | zero =>
    rw [readItems] at h
    cases h
  | succ work =>
    rw [readItems] at h
    obtain ⟨⟨item, after⟩, -, h⟩ := bind_eq_ok.mp h
    dsimp only at h
    split at h
    · cases h
    · cases h
      exact Value.noConfusion
    · split at h
      · cases h
      · cases h
      · obtain ⟨⟨others, _⟩, -, h⟩ := bind_eq_ok.mp h
        cases h
        exact consItem_ne item others
    · cases h

/-- An object begins with a brace, behind spaces, and ends with one. -/
theorem brace_of_readTree {work room : Nat} {text rest : List Symbol} {tree : Tree}
    {members : Object} (h : readTree .strict work room text = .ok (tree, rest))
    (isObject : tree.toValue = .object members) :
    ∃ inside, skipSpace text = .char '\x7b' :: inside ∧
      Passes inside (.char '\x7d' :: rest) := by
  cases work with
  | zero =>
    rw [readTree] at h
    cases h
  | succ work =>
    rw [readTree] at h
    split at h
    · cases h
    · obtain ⟨_, -, h⟩ := bind_eq_ok.mp h
      cases h
      cases isObject
    · obtain ⟨_, -, h⟩ := bind_eq_ok.mp h
      cases h
      cases isObject
    · obtain ⟨_, -, h⟩ := bind_eq_ok.mp h
      cases h
      cases isObject
    · obtain ⟨⟨chars, _⟩, -, h⟩ := bind_eq_ok.mp h
      cases h
      cases chars <;> cases isObject
    · split at h
      · cases h
      · split at h
        · cases h
        · cases h
          unfold tooDeep at isObject
          split at isObject <;> cases isObject
        · obtain ⟨⟨items, _⟩, read, h⟩ := bind_eq_ok.mp h
          cases h
          unfold tooDeep at isObject
          split at isObject
          · cases isObject
          · exact absurd isObject (ne_object_of_readItems read)
    · next inside same =>
      split at h
      · cases h
      · exact ⟨inside, same, (readsEnclosed work).object h⟩
    · split at h
      · obtain ⟨⟨n, _⟩, -, h⟩ := bind_eq_ok.mp h
        cases h
        cases n <;> cases isObject
      · cases h

namespace Value

/-- **The text of an object is an enclosed text in braces**, between spaces. -/
theorem enclosed_of_read_object {cs : List Char} {members : Object}
    (h : Value.read (symbols cs) = .ok (.object members)) :
    ∃ before inner after, Gap before ∧ Gap after ∧ Enclosed (fun _ => true) inner ∧
      cs = before ++ '\x7b' :: (inner ++ '\x7d' :: after) := by
  obtain ⟨tree, rest, read, ended, isObject⟩ := tree_of_read h
  obtain ⟨inside, opened, inner, enclosed, closed⟩ := brace_of_readTree read isObject
  obtain ⟨before, spaces, front⟩ := eq_gap_skipSpace (symbols cs)
  obtain ⟨after, spaces', back⟩ := eq_gap_skipSpace rest
  refine ⟨before, inner, after, spaces, spaces', enclosed, ?_⟩
  rw [opened, closed, back, ended] at front
  have whole : symbols cs = symbols (before ++ '\x7b' :: (inner ++ '\x7d' :: after)) := by
    rw [front]
    simp
  exact List.map_injective_iff.mpr (fun _ _ same => Symbol.char.inj same) whole

end Value

/-! ## Strings, whoever reads them -/

/-- A character in front of a string that is read after it. -/
theorem bind_consChar_eq_ok_iff {c : Char}
    {read : Except Fault (Option (List Char) × List Symbol)} {cs : List Char}
    {rest : List Symbol} :
    (do return consChar c (← read)) = .ok (some cs, rest) ↔
      ∃ others, read = .ok (some others, rest) ∧ c :: others = cs := by
  constructor
  · intro h
    obtain ⟨⟨others, after⟩, read, same⟩ := bind_eq_ok.mp h
    cases others with
    | none => cases same
    | some others =>
      cases same
      exact ⟨others, read, rfl⟩
  · rintro ⟨others, rfl, rfl⟩
    rfl

/-- **Every reader reads the same strings**, if it finds no part in them that is no character. -/
theorem readChars_of_readChars {skipping : Bool} {text rest : List Symbol} {cs : List Char}
    (h : readChars skipping text = .ok (some cs, rest)) (other : Bool) :
    readChars other text = .ok (some cs, rest) := by
  fun_induction readChars skipping text generalizing cs
  case case6 =>
    rw [readChars]
    exact h
  case case2 => cases h
  case case8 =>
    obtain ⟨_, -, missing⟩ := bind_eq_ok.mp h
    cases missing
  case case11 first notTrailing leading _ _ _ _ after _ second trailing _ _ ih =>
    obtain ⟨others, read, rfl⟩ := bind_consChar_eq_ok_iff.mp h
    rw [readChars, first]
    simp only [notTrailing, leading, startsTrailing, second, trailing, ih read, Option.any_some,
      Bool.not_true, Bool.and_false, Bool.or_self, Bool.false_eq_true, if_false, if_true]
    rfl
  case case15 number _ notTrailing notLeading ih =>
    obtain ⟨others, read, rfl⟩ := bind_consChar_eq_ok_iff.mp h
    rw [readChars, number]
    simp only [notTrailing, notLeading, ih read, Bool.false_and, Bool.or_self, Bool.and_false,
      Bool.false_eq_true, if_false]
    rfl
  case case19 noUnicode noShort _ escape ih =>
    obtain ⟨others, read, rfl⟩ := bind_consChar_eq_ok_iff.mp h
    rw [readChars, escape]
    · simp only [ih read]
      rfl
    all_goals assumption
  case case22 quote unicode short atEnd broken escape control ih =>
    obtain ⟨others, read, rfl⟩ := bind_consChar_eq_ok_iff.mp h
    rw [readChars, if_neg control]
    · simp only [ih read]
      rfl
    all_goals assumption
  -- In all other cases the reader finds a fault.
  all_goals contradiction

theorem Tree.toValue_eq_string_iff {tree : Tree} {s : String} :
    tree.toValue = .string s ↔ tree = .string s := by
  cases tree <;> simp [toValue]

/-- The text of a string, whoever reads it: its characters, a quote, and spaces. -/
theorem readWith_quote_eq_ok_iff {care : Care} {cs : List Char} {s : String} :
    Tree.readWith care (symbols ('"' :: cs)) = .ok (.string s) ↔
      ∃ chars rest, readChars care.skips (symbols cs) = .ok (some chars, rest) ∧
        skipSpace rest = [] ∧ String.ofList chars = s := by
  rw [Tree.readWith, mapError_eq_ok, readWhole?, readTree, symbols_cons, skipSpace_cons rfl]
  constructor
  · intro h
    obtain ⟨⟨tree, rest⟩, read, h⟩ := bind_eq_ok.mp h
    obtain ⟨⟨chars, _⟩, read, same⟩ := bind_eq_ok.mp read
    cases same
    dsimp only at h
    split at h
    · next ended =>
      cases chars with
      | none => cases h
      | some chars =>
        cases h
        exact ⟨chars, rest, read, ended, rfl⟩
    · cases h
  · rintro ⟨chars, rest, read, ended, rfl⟩
    exact bind_eq_ok.mpr ⟨(stringTree (some chars), rest), bind_eq_ok.mpr ⟨_, read, rfl⟩, by
      dsimp only
      rw [ended]
      rfl⟩

/-- **A text from a quote on is read as a string** by who expects a string just when it is the text of
that value. -/
theorem decode_quote_eq_ok_iff {cs : List Char} {s : String} :
    decode .string Tree.string? (symbols ('"' :: cs)) = .ok s ↔
      Value.read (symbols ('"' :: cs)) = .ok (.string s) := by
  have lenient : decode .string Tree.string? (symbols ('"' :: cs)) = .ok s ↔
      Tree.readLenient (symbols ('"' :: cs)) = .ok (.string s) := by
    unfold decode read?
    cases Tree.readLenient (symbols ('"' :: cs)) with
    | error fault => simp
    | ok tree => cases tree <;> simp [Tree.string?]
  have strict : Value.read (symbols ('"' :: cs)) = .ok (.string s) ↔
      Tree.read (symbols ('"' :: cs)) = .ok (.string s) := by
    rw [Value.read, map_eq_ok]
    simp only [Tree.toValue_eq_string_iff, exists_eq_right]
  rw [lenient, strict, Tree.readLenient, Tree.read, readWith_quote_eq_ok_iff,
    readWith_quote_eq_ok_iff]
  constructor
  · rintro ⟨chars, rest, read, ended⟩
    exact ⟨chars, rest, readChars_of_readChars read _, ended⟩
  · rintro ⟨chars, rest, read, ended⟩
    exact ⟨chars, rest, readChars_of_readChars read _, ended⟩

end CapabilityPipeline.Json
