import CapabilityPipeline.Proofs.Program.Composition
import CapabilityPipeline.Proofs.Program.WellFormed

/-!
# The canonical text of a step

Results:

* `Step.balanced_chars`, `Step.tidy_chars`: the text is balanced, without operators outside
  literals, and has no blanks at its ends.
* `Step.parse_chars`: the text is read as the step.
-/

namespace CapabilityPipeline

open Json (Value stringText stringBody symbols)
open Source Text

/-! ## JSON -/

theorem literalBody_escapedChar (c : Char) : LiteralBody (Json.escapedChar c) := by
  have hexDigits : ∀ n, n < 16 → Json.hexDigit n ≠ '"' ∧ Json.hexDigit n ≠ '\\' ∧
      Json.hexDigit n ≠ '\n' := by decide
  unfold Json.escapedChar
  split
  · exact .escape (by decide) .nil
  split
  · exact .escape (by decide) .nil
  split
  · exact .escape (by decide) .nil
  split
  · exact .escape (by decide) .nil
  split
  · exact .escape (by decide) .nil
  split
  · exact .escape (by decide) .nil
  split
  · exact .escape (by decide) .nil
  split
  · next control =>
    obtain ⟨a1, a2, a3⟩ := hexDigits (c.toNat / 16) (by omega)
    obtain ⟨b1, b2, b3⟩ := hexDigits (c.toNat % 16) (by omega)
    exact .escape (by decide) (.char (by decide) (by decide) (by decide)
      (.char (by decide) (by decide) (by decide) (.char a1 a2 a3 (.char b1 b2 b3 .nil))))
  · next quote backslash newline _ _ _ _ _ => exact .char quote backslash newline .nil

/-- A string keeps within its quotes. -/
theorem literalBody_stringBody (cs : List Char) : LiteralBody (stringBody cs) := by
  induction cs with
  | nil => exact .nil
  | cons c cs ih => exact (literalBody_escapedChar c).append ih

theorem balanced_stringText {allowed : Char → Bool} (text : String) {rest : List Char}
    (h : Balanced allowed rest) : Balanced allowed (stringText text ++ rest) := by
  rw [Json.stringText_eq, List.cons_append, List.append_assoc]
  exact .literal (literalBody_stringBody _) h

theorem balanced_number (n : Json.Number) : Balanced isOperand n.text := by
  cases n with
  | integer value _ =>
    have digits : Balanced isOperand (Nat.toDigits 10 value.natAbs) := .of_plain fun c hc =>
      plain_of_class Char.isDigit (by decide)
        (Nat.isDigit_of_mem_toDigits (by decide) (by decide) hc)
    unfold Json.Number.text Json.integerText
    dsimp only
    split
    · exact .plain rfl rfl digits
    · exact digits
  | double x =>
    exact .of_plain fun c hc => plain_of_class Json.continuesNumeral (by decide)
      (Json.continuesNumeral_doubleText x c hc)

namespace Json.Value

mutual

theorem texts_reread : ∀ v : Value, v.reread.texts = v.texts
  | .null | .bool _ | .number _ | .string _ => rfl
  | .array items => by rw [reread, texts, texts, itemTexts_rereadItems items]
  | .object members => by rw [reread, texts, texts, memberTexts_rereadMembers members]

theorem itemTexts_rereadItems : ∀ items : List Value,
    itemTexts (rereadItems items) = itemTexts items
  | [] => rfl
  | item :: rest => by
    rw [rereadItems, itemTexts, itemTexts, texts_reread item, itemTexts_rereadItems rest]

theorem memberTexts_rereadMembers : ∀ members : List (String × Value),
    memberTexts (rereadMembers members) = memberTexts members
  | [] => rfl
  | (_, value) :: rest => by
    rw [rereadMembers, memberTexts, memberTexts, texts_reread value,
      memberTexts_rereadMembers rest]

end

mutual

/-- The compact text of a value is balanced. -/
theorem balanced_chars : ∀ v : Value, Balanced isOperand v.chars
  | .null => by
    rw [chars]
    exact .of_all (by decide)
  | .bool true => by
    rw [chars]
    exact .of_all (by decide)
  | .bool false => by
    rw [chars]
    exact .of_all (by decide)
  | .number n => by
    rw [chars]
    exact balanced_number n
  | .string s => by
    have text : Balanced isOperand (stringText s ++ []) := balanced_stringText s .nil
    rwa [List.append_nil] at text
  | .array items => by
    rw [chars]
    exact .bracket .square (balanced_itemChars items) .nil
  | .object members => by
    rw [chars]
    exact .bracket .curly (balanced_memberChars members) .nil

/-- The compact texts of items are balanced. -/
theorem balanced_itemChars : ∀ items : List Value, Balanced isOperand (itemChars items)
  | [] => .nil
  | [item] => by
    rw [itemChars]
    exact balanced_chars item
  | item :: next :: others => by
    rw [itemChars]
    · exact (balanced_chars item).append (.plain rfl rfl (balanced_itemChars (next :: others)))
    · simp

/-- The compact texts of members are balanced. -/
theorem balanced_memberChars : ∀ members : List (String × Value),
    Balanced isOperand (memberChars members)
  | [] => .nil
  | [(name, value)] => by
    rw [memberChars]
    exact balanced_stringText name (.plain rfl rfl (balanced_chars value))
  | (name, value) :: next :: others => by
    rw [memberChars, List.append_assoc]
    · exact balanced_stringText name (.plain rfl rfl ((balanced_chars value).append
        (.plain rfl rfl (balanced_memberChars (next :: others)))))
    · simp

end

end Json.Value

/-! ## Identifiers -/

theorem balanced_identifier {name : List Char} (h : isIdentifier name = true) :
    Balanced isOperand name :=
  .of_plain fun c hc => plain_of_class continuesIdentifier (by decide)
    (continuesIdentifier_of_isIdentifier h c hc)

/-! ## Steps -/

namespace Step

/-- All numbers in the parameters are integers. -/
def IsIntegral (s : Step) : Prop := Value.membersIntegral s.params = true

instance (s : Step) : Decidable s.IsIntegral := instDecidableEqBool _ _

/-- The step with each number in its parameters as the text of the number is read. -/
def reread (s : Step) : Step := { s with params := Value.rereadMembers s.params }

theorem reread_of_isIntegral {s : Step} (h : s.IsIntegral) : s.IsFinite ∧ s.reread = s := by
  obtain ⟨finite, same⟩ := Value.rereadMembers_of_isIntegral s.params h
  exact ⟨finite, by rw [reread, same]⟩

/-- Only numbers differ, so the same names are mentioned. -/
theorem mentions_reread (s : Step) : s.reread.mentions = s.mentions := by
  unfold mentions texts reread
  rw [Value.memberTexts_rereadMembers]

/-- The part of the text in front of the target. -/
def headerChars (s : Step) : List Char :=
  '[' :: (s.domain.toList ++ ':' :: (s.action.toList ++ [']']))

/-- The target in parentheses, empty without one. -/
def targetChars (s : Step) : List Char :=
  match s.target with
  | some target => '(' :: (stringText target ++ [')'])
  | none => []

/-- The parameters after a space, empty without any. -/
def paramsChars (s : Step) : List Char :=
  if s.params.isEmpty then [] else ' ' :: (Value.object s.params).chars

theorem chars_eq (s : Step) : s.chars = s.headerChars ++ (s.targetChars ++ s.paramsChars) := by
  unfold chars headerChars targetChars paramsChars
  cases s.target <;> simp

variable {s : Step}

theorem balanced_headerChars (h : s.WellFormed) : Balanced isOperand s.headerChars := by
  have inner : Balanced isOperand (s.domain.toList ++ ':' :: s.action.toList) :=
    (balanced_identifier h.domain).append (.plain rfl rfl (balanced_identifier h.action))
  have := Balanced.bracket .square inner .nil
  rwa [List.append_assoc, List.cons_append] at this

theorem balanced_targetChars (s : Step) : Balanced isOperand s.targetChars := by
  unfold targetChars
  cases s.target with
  | none => exact .nil
  | some target =>
    have text : Balanced isOperand (stringText target ++ []) := balanced_stringText target .nil
    rw [List.append_nil] at text
    exact .bracket .round text .nil

theorem balanced_paramsChars (s : Step) : Balanced isOperand s.paramsChars := by
  unfold paramsChars
  split
  · exact .nil
  · exact .plain rfl rfl (Value.balanced_chars (.object s.params))

/-- The text of a step is balanced, without operators outside literals. -/
theorem balanced_chars (h : s.WellFormed) : Balanced isOperand s.chars := by
  rw [chars_eq]
  exact (balanced_headerChars h).append
    ((balanced_targetChars s).append (balanced_paramsChars s))

/-- The text of a step begins and ends with a bracket. -/
theorem tidy_chars (s : Step) :
    Tidy s.chars ∧ ∃ b front, s.chars = front ++ [Bracket.closer b] := by
  have last : ∃ b front, s.chars = front ++ [Bracket.closer b] := by
    rw [chars_eq]
    unfold paramsChars
    split
    · unfold targetChars
      cases s.target with
      | none =>
        exact ⟨.square, '[' :: (s.domain.toList ++ ':' :: s.action.toList),
          by simp [headerChars, Bracket.closer]⟩
      | some target =>
        exact ⟨.round, s.headerChars ++ '(' :: stringText target, by simp [Bracket.closer]⟩
    · exact ⟨.curly,
        s.headerChars ++ (s.targetChars ++ ' ' :: '\x7b' :: Value.memberChars s.params),
        by simp [Bracket.closer, Value.chars]⟩
  refine ⟨⟨⟨'[', _, (chars_eq s).trans rfl, rfl⟩, ?_⟩, last⟩
  obtain ⟨b, front, same⟩ := last
  exact ⟨front, b.closer, same, by cases b <;> rfl⟩

/-- The target between quotes denotes itself. -/
theorem denotes_stringText (target : String) :
    Denotes (trim (stringText target)) (some target) := by
  have tidy : Tidy (stringText target) :=
    ⟨⟨'"', _, rfl, rfl⟩, ⟨_, '"', rfl, rfl⟩⟩
  have read : Value.read (symbols (stringText target)) = .ok (.string target) :=
    Value.read_spells (v := .string target) (by rw [Value.Spells]) trivial (Nat.zero_le _)
  rw [tidy.trim_eq]
  exact .string read

theorem targetText_targetChars (s : Step) : TargetText s.targetChars s.target := by
  unfold targetChars
  cases s.target with
  | none => exact .absent
  | some target =>
    have balanced : Balanced isOperand (stringText target ++ []) := balanced_stringText target .nil
    rw [List.append_nil] at balanced
    exact .present (balanced.enclosed.mono fun _ _ => rfl) (denotes_stringText target)

/-- Parameters are read as they are, up to their doubles. -/
theorem paramsText_paramsChars (h : s.WellFormed) (finite : s.IsFinite) :
    ∃ blanks text, Blanks blanks ∧ ParamsText text s.reread.params ∧
      s.paramsChars = blanks ++ text := by
  unfold paramsChars
  split
  · next empty =>
    refine ⟨[], [], blanks_nil, ?_, rfl⟩
    rw [reread, List.isEmpty_iff.mp empty]
    exact .absent
  · exact ⟨[' '], _, blanks_space,
      .present (Value.read_chars (v := .object s.params) finite h.distinct h.depth), rfl⟩

/-- The compact text of a step is one of the texts of the step, up to its doubles. -/
theorem writtenAs_chars (h : s.WellFormed) (finite : s.IsFinite) :
    s.reread.WrittenAs s.chars := by
  obtain ⟨blanks, params, hb, isParams, same⟩ := paramsText_paramsChars h finite
  refine ⟨s.headerChars, [], s.targetChars, blanks, params,
    ⟨h.domain, h.action, [], [], [], [], blanks_nil, blanks_nil, blanks_nil, blanks_nil, ?_⟩,
    blanks_nil, targetText_targetChars s, hb, isParams, ?_⟩
  · simp [headerChars, reread]
  · rw [(tidy_chars s).1.trim_eq, chars_eq, same]
    rfl

/-- **The text of a step is read as the step**, up to its doubles. -/
theorem parse_chars (h : s.WellFormed) (finite : s.IsFinite) :
    Step.parse s.chars = .ok s.reread :=
  (writtenAs_chars h finite).parse_eq

end Step

end CapabilityPipeline
