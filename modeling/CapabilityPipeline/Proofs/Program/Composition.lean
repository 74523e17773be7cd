import CapabilityPipeline.Program.Printer
import CapabilityPipeline.Proofs.Source.Balanced
import CapabilityPipeline.Proofs.Text.Trim

/-!
# Operators in texts

An operator that stands in literals and brackets only is not found when a text is split at it.
Texts that were joined by operators between blanks are the subject of all that is laid out.

Results:

* `Source.Enclosed.piecesFrom_eq`: an enclosed text is passed over in search of an operator.
* `Source.Enclosed.occurs_eq`, `Source.Balanced.occurs_eq`: the operator does not occur.
* `Source.piecesFrom_symbol`: an operator at top level ends a piece.
* `Joined`: texts one after another with separators between them.
-/

namespace CapabilityPipeline

open Source Text

namespace Source

/-- The character does not begin an operator. -/
def Operator.avoids (op : Operator) (c : Char) : Bool :=
  op.symbol.head? != some c

theorem Operator.not_isPrefixOf {op : Operator} {c : Char} (h : op.avoids c = true)
    (rest : List Char) : op.symbol.isPrefixOf (c :: rest) = false := by
  rw [Bool.eq_false_iff]
  intro isFront
  obtain ⟨tail, same⟩ := List.isPrefixOf_iff_prefix.mp isFront
  cases op <;> cases same <;> cases h

/-- A text in front of the first part. -/
def prependFirst (cs : List Char) (parts : List (List Char)) : List (List Char) :=
  cs.foldr consFirst parts

theorem prependFirst_cons (cs part : List Char) (others : List (List Char)) :
    prependFirst cs (part :: others) = (cs ++ part) :: others := by
  induction cs with
  | nil => rfl
  | cons c cs ih =>
    rw [prependFirst] at ih ⊢
    rw [List.foldr_cons, ih]
    rfl

theorem map_prependFirst_cons {ε : Type} (c : Char) (cs : List Char)
    (x : Except ε (List (List Char))) :
    (x.map (prependFirst cs)).map (consFirst c) = x.map (prependFirst (c :: cs)) := by
  cases x <;> rfl

theorem map_prependFirst_append {ε : Type} (cs ds : List Char)
    (x : Except ε (List (List Char))) :
    (x.map (prependFirst ds)).map (prependFirst cs) = x.map (prependFirst (cs ++ ds)) := by
  cases x <;> simp [Except.map, prependFirst]

theorem map_prependFirst_nil {ε : Type} (x : Except ε (List (List Char))) :
    x.map (prependFirst []) = x := by
  cases x <;> rfl

/-! ## Passing over enclosed texts -/

theorem byteCount_nil : byteCount [] = 0 := rfl

theorem byteCount_cons (c : Char) (cs : List Char) :
    byteCount (c :: cs) = c.utf8Size + byteCount cs := rfl

theorem byteCount_append (a b : List Char) : byteCount (a ++ b) = byteCount a + byteCount b := by
  induction a with
  | nil => simp [byteCount]
  | cons c a ih => rw [List.cons_append, byteCount_cons, byteCount_cons, ih, Nat.add_assoc]

theorem piecesFrom_literalText (op : Operator) {body : List Char} (h : LiteralText body)
    (offset : Nat) (nesting : List Bracket) (rest : List Char) :
    piecesFrom op ⟨offset, .inside, nesting, 0⟩ (body ++ '"' :: rest) =
      (piecesFrom op ⟨offset + byteCount (body ++ ['"']), .outside, nesting, 0⟩ rest).map
        (prependFirst (body ++ ['"'])) := by
  have quoted (quote : Quote) (hq : quote ≠ .outside) (c : Char) (offset : Nat)
      (rest : List Char) : piecesFrom op ⟨offset, quote, nesting, 0⟩ (c :: rest) =
        (piecesFrom op ⟨offset + c.utf8Size, quote.next c, nesting, 0⟩ rest).map
          (consFirst c) := by
    rw [piecesFrom]
    simp [hq]
  induction h generalizing offset with
  | nil => exact quoted .inside (by decide) '"' offset rest
  | char quote backslash _ ih =>
    rw [List.cons_append, quoted .inside (by decide), next_inside quote backslash, ih,
      map_prependFirst_cons, Nat.add_assoc]
    rfl
  | escape _ ih =>
    rw [List.cons_append, List.cons_append, quoted .inside (by decide),
      quoted (Quote.inside.next '\\') (by decide)]
    have back (c : Char) : (Quote.inside.next '\\').next c = .inside := rfl
    rw [back, ih, map_prependFirst_cons, map_prependFirst_cons, Nat.add_assoc, Nat.add_assoc]
    rfl

/-- An enclosed text is not split at an operator that does not occur in it at top level, nor
inside brackets. -/
theorem Enclosed.piecesFrom_eq {op : Operator} {allowed : Char → Bool} {cs : List Char}
    (h : Enclosed allowed cs) (offset : Nat) (nesting : List Bracket)
    (atTop : nesting = [] → ∀ c, allowed c = true → op.avoids c = true) (rest : List Char) :
    piecesFrom op ⟨offset, .outside, nesting, 0⟩ (cs ++ rest) =
      (piecesFrom op ⟨offset + byteCount cs, .outside, nesting, 0⟩ rest).map
        (prependFirst cs) := by
  induction h generalizing offset nesting rest with
  | nil => exact (map_prependFirst_nil _).symm
  | @quiet allowed c tail quiet ok _ ih =>
    obtain ⟨opener, closer, quote⟩ := isQuiet_iff.mp quiet
    have passed : ¬(nesting = [] ∧ op.symbol.isPrefixOf (c :: (tail ++ rest)) = true) := by
      rintro ⟨none, isFront⟩
      rw [Operator.not_isPrefixOf (atTop none c ok)] at isFront
      cases isFront
    rw [List.cons_append, piecesFrom, opener, closer, next_outside quote]
    simp only [Nat.lt_irrefl, if_false, ne_eq, not_true_eq_false, gt_iff_lt, if_neg passed]
    rw [ih _ _ atTop, map_prependFirst_cons, Nat.add_assoc]
    rfl
  | @literal allowed body tail hb _ ih =>
    have opener : Bracket.ofOpener? '"' = none := rfl
    have closer : Bracket.ofCloser? '"' = none := rfl
    have avoids : op.avoids '"' = true := by cases op <;> rfl
    have inside : Quote.outside.next '"' = .inside := rfl
    rw [List.cons_append, List.append_assoc, List.cons_append, piecesFrom, opener, closer,
      Operator.not_isPrefixOf avoids, inside]
    simp only [Nat.lt_irrefl, if_false, ne_eq, not_true_eq_false, Bool.false_eq_true, and_false,
      gt_iff_lt]
    rw [piecesFrom_literalText op hb, ih _ _ atTop, map_prependFirst_append,
      map_prependFirst_cons, List.append_assoc, List.singleton_append]
    simp only [byteCount_nil, byteCount_cons, byteCount_append, Nat.add_assoc, Nat.zero_add]
  | @bracket allowed b inner tail _ _ ihInner ih =>
    rw [List.cons_append, List.append_assoc, List.cons_append, piecesFrom, b.ofOpener?_opener]
    simp only [Nat.lt_irrefl, if_false, ne_eq, not_true_eq_false, gt_iff_lt]
    rw [ihInner _ (b :: nesting) (fun none => by cases none), piecesFrom, b.ofOpener?_closer,
      b.ofCloser?_closer]
    simp only [Nat.lt_irrefl, if_false, ne_eq, not_true_eq_false, gt_iff_lt, if_true]
    rw [ih _ _ atTop]
    simp only [map_prependFirst_cons, map_prependFirst_append, byteCount_cons, byteCount_append,
      Nat.add_assoc]

/-- An enclosed text without an operator is one piece. -/
theorem Enclosed.pieces_eq {op : Operator} {cs : List Char} (h : Enclosed op.avoids cs) :
    pieces op cs = .ok [cs] := by
  have passed := h.piecesFrom_eq 0 [] (fun _ _ ok => ok) []
  rw [List.append_nil] at passed
  rw [pieces, SplitScan.start, passed]
  simp [piecesFrom, Except.map, prependFirst_cons]

theorem Enclosed.occurs_eq {op : Operator} {cs : List Char} (h : Enclosed op.avoids cs) :
    occurs op cs = .ok false := by
  rw [occurs, h.pieces_eq]
  rfl

theorem Balanced.occurs_eq {op : Operator} {cs : List Char} (h : Balanced op.avoids cs) :
    occurs op cs = .ok false :=
  h.enclosed.occurs_eq

/-- An operator at top level ends a piece. -/
theorem piecesFrom_symbol (op : Operator) (offset : Nat) (rest : List Char) :
    piecesFrom op ⟨offset, .outside, [], 0⟩ (op.symbol ++ rest) =
      (piecesFrom op ⟨offset + byteCount op.symbol, .outside, [], 0⟩ rest).map ([] :: ·) := by
  cases op <;> simp [Operator.symbol, piecesFrom, Bracket.ofOpener?, Bracket.ofCloser?,
    Bracket.opener, Bracket.closer, byteCount, Nat.add_assoc]

end Source

/-! ## Characters -/

/-- The characters with a meaning to scanners. -/
def marks : List Char :=
  ['(', ')', '[', ']', '\x7b', '\x7d', '"', '\n', '#']

theorem isPlain_of_not_mem {c : Char} (h : c ∉ marks) : isPlain c = true := by
  simp only [marks, List.mem_cons, List.not_mem_nil, or_false, not_or] at h
  obtain ⟨h1, h2, h3, h4, h5, h6, h7, h8, h9⟩ := h
  simp [isPlain, Bracket.ofOpener?, Bracket.ofCloser?, Bracket.opener, Bracket.closer, Ne.symm h1,
    Ne.symm h2, Ne.symm h3, Ne.symm h4, Ne.symm h5, Ne.symm h6, h7, h8, h9]

/-- A character that does not begin an operator. -/
def isOperand (c : Char) : Bool :=
  Operator.all.all fun op => op.avoids c

theorem avoids_of_isOperand {c : Char} (op : Operator) (h : isOperand c = true) :
    op.avoids c = true :=
  List.all_eq_true.mp h op (by cases op <;> decide)

/-- Characters of a class in which no operator begins. -/
theorem isOperand_of_class (isMember : Char → Bool)
    (outside : ['>', '&', '?'].any isMember = false) {c : Char} (h : isMember c = true) :
    isOperand c = true := by
  have other : ∀ m ∈ ['>', '&', '?'], m ≠ c := by
    rintro m hm rfl
    exact List.any_eq_false.mp outside m hm h
  simp only [List.forall_mem_cons, List.not_mem_nil, false_implies, implies_true, and_true] at other
  simp [isOperand, Operator.all, Operator.avoids, Operator.symbol, other]

/-- Characters of a class without marks and operators. -/
theorem plain_of_class (isMember : Char → Bool)
    (outside : (marks ++ ['>', '&', '?']).any isMember = false) {c : Char}
    (h : isMember c = true) : isPlain c = true ∧ isOperand c = true := by
  rw [List.any_append, Bool.or_eq_false_iff] at outside
  refine ⟨isPlain_of_not_mem fun hc => ?_, isOperand_of_class isMember outside.2 h⟩
  exact List.any_eq_false.mp outside.1 c hc h

/-! ## Joined texts -/

/-- A text that may stand between occurrences of an operator. -/
structure IsPart (op : Operator) (cs : List Char) : Prop where
  balanced : Balanced op.avoids cs
  tidy : Tidy cs

theorem joinWith_singleton (separator text : List Char) : joinWith separator [text] = text := by
  rw [joinWith]

theorem joinWith_cons_cons (separator text next : List Char) (others : List (List Char)) :
    joinWith separator (text :: next :: others) =
      text ++ separator ++ joinWith separator (next :: others) := by
  rw [joinWith]
  simp

/-- Two lists of texts are joined one after the other. -/
theorem joinWith_append (separator : List Char) {above below : List (List Char)}
    (ha : above ≠ []) (hb : below ≠ []) :
    joinWith separator (above ++ below) =
      joinWith separator above ++ separator ++ joinWith separator below := by
  induction above with
  | nil => exact absurd rfl ha
  | cons text others ih =>
    by_cases last : others = []
    · subst last
      obtain ⟨next, rest, rfl⟩ := List.exists_cons_of_ne_nil hb
      exact joinWith_cons_cons separator text next rest
    · obtain ⟨next, rest, rfl⟩ := List.exists_cons_of_ne_nil last
      have later := ih (List.cons_ne_nil next rest)
      rw [List.cons_append] at later
      rw [List.cons_append, List.cons_append, joinWith_cons_cons, later, joinWith_cons_cons]
      simp only [List.append_assoc]

/-- Blanks on one line. -/
def Padding (cs : List Char) : Prop := ∀ c ∈ cs, isBlank c = true ∧ c ≠ '\n'

/-- An operator between spacing of some kind. -/
def Separates (spacing : List Char → Prop) (op : Operator) (cs : List Char) : Prop :=
  ∃ left right, spacing left ∧ spacing right ∧ cs = left ++ op.symbol ++ right

/-- Texts one after another with separators between them. -/
inductive Joined (separates : List Char → Prop) : List (List Char) → List Char → Prop
  | single (text : List Char) : Joined separates [text] text
  | cons (text : List Char) {separator rest : List Char} {others : List (List Char)}
      (hs : separates separator) (h : Joined separates others rest) :
      Joined separates (text :: others) (text ++ separator ++ rest)

theorem padding_nil : Padding [] := fun _ h => by cases h

theorem padding_space : Padding [' '] := fun _ h => by
  rw [List.mem_singleton.mp h]
  decide

theorem Padding.blanks {cs : List Char} (h : Padding cs) : Blanks cs :=
  fun c hc => (h c hc).1

theorem Padding.newline_not_mem {cs : List Char} (h : Padding cs) : '\n' ∉ cs :=
  fun hc => (h _ hc).2 rfl

/-- Blanks on one line have no meaning to scanners, and are no operators. -/
theorem Padding.balanced {cs : List Char} (h : Padding cs) : Balanced isOperand cs :=
  .of_plain fun c hc => plain_of_class (fun c => isBlank c && c != '\n') (by decide)
    (by rw [(h c hc).1, bne_iff_ne.mpr (h c hc).2]; rfl)

namespace Joined

variable {separates : List Char → Prop} {texts : List (List Char)} {cs : List Char}

theorem ne_nil (h : Joined separates texts cs) : texts ≠ [] := by
  cases h <;> exact List.cons_ne_nil _ _

theorem mono {permits : List Char → Prop} (h : Joined separates texts cs)
    (sub : ∀ separator, separates separator → permits separator) : Joined permits texts cs := by
  induction h with
  | single text => exact .single text
  | cons text hs _ ih => exact .cons text (sub _ hs) ih

/-- What the parts have and separators keep, a joined text has. -/
theorem induction {motive : List Char → Prop} (h : Joined separates texts cs)
    (append : ∀ a separator b, separates separator → motive a → motive b →
      motive (a ++ separator ++ b))
    (each : ∀ text ∈ texts, motive text) : motive cs := by
  induction h with
  | single text => exact each text (List.mem_singleton_self text)
  | cons text hs _ ih =>
    obtain ⟨first, others⟩ := List.forall_mem_cons.mp each
    exact append _ _ _ hs first (ih others)

end Joined

theorem joined_joinWith {separator : List Char} {texts : List (List Char)}
    (nonempty : texts ≠ []) : Joined (· = separator) texts (joinWith separator texts) := by
  induction texts with
  | nil => exact absurd rfl nonempty
  | cons text others ih =>
    cases others with
    | nil => exact .single text
    | cons next others =>
      rw [joinWith_cons_cons]
      exact .cons text rfl (ih (List.cons_ne_nil next others))

end CapabilityPipeline
