import CapabilityPipeline.Proofs.Source.Enclosed

/-!
# Balanced texts

A text is balanced when it is enclosed, is one line and has nothing outside its literals that
starts a comment. Every scanner of program text passes over a balanced text and stands after it as
it stood before.

Results:

* `Balanced`: balanced texts whose characters outside literals and brackets are all allowed.
* `Balanced.keep_eq`: no comment is stripped from a balanced text.
* `Balanced.enclosed`: what holds of enclosed texts holds of balanced ones.
-/

namespace CapabilityPipeline.Source

/-! ## Definitions -/

/-- A character without a meaning to scanners: no bracket, quote or `#`, and no line break. -/
def isPlain (c : Char) : Bool :=
  (Bracket.ofOpener? c).isNone && (Bracket.ofCloser? c).isNone && c != '"' && c != '\n' && c != '#'

/-- The text of a string literal between its quotes, on one line. -/
inductive LiteralBody : List Char → Prop
  | nil : LiteralBody []
  | char {c : Char} {rest : List Char} (quote : c ≠ '"') (backslash : c ≠ '\\')
      (newline : c ≠ '\n') (h : LiteralBody rest) : LiteralBody (c :: rest)
  | escape {c : Char} {rest : List Char} (newline : c ≠ '\n') (h : LiteralBody rest) :
      LiteralBody ('\\' :: c :: rest)

/-- A text of literals, matching brackets and plain characters that are allowed. -/
inductive Balanced (allowed : Char → Bool) : List Char → Prop
  | nil : Balanced allowed []
  | plain {c : Char} {rest : List Char} (plain : isPlain c = true) (ok : allowed c = true)
      (h : Balanced allowed rest) : Balanced allowed (c :: rest)
  | literal {body rest : List Char} (hb : LiteralBody body) (h : Balanced allowed rest) :
      Balanced allowed ('"' :: (body ++ '"' :: rest))
  | bracket (b : Bracket) {inner rest : List Char} (hi : Balanced allowed inner)
      (h : Balanced allowed rest) : Balanced allowed (b.opener :: (inner ++ b.closer :: rest))

/-! ## Making balanced texts -/

theorem LiteralBody.append {a b : List Char} (ha : LiteralBody a) (hb : LiteralBody b) :
    LiteralBody (a ++ b) := by
  induction ha with
  | nil => exact hb
  | char quote backslash newline _ ih => exact .char quote backslash newline ih
  | escape newline _ ih => exact .escape newline ih

theorem Balanced.append {allowed : Char → Bool} {a b : List Char} (ha : Balanced allowed a)
    (hb : Balanced allowed b) : Balanced allowed (a ++ b) := by
  induction ha with
  | nil => exact hb
  | plain plain ok _ ih => exact .plain plain ok ih
  | literal body _ ih =>
    rw [List.cons_append, List.append_assoc, List.cons_append]
    exact .literal body ih
  | bracket bracket inner _ _ ih =>
    rw [List.cons_append, List.append_assoc, List.cons_append]
    exact .bracket bracket inner ih

theorem Balanced.mono {allowed permitted : Char → Bool} {cs : List Char}
    (h : Balanced allowed cs) (sub : ∀ c, allowed c = true → permitted c = true) :
    Balanced permitted cs := by
  induction h with
  | nil => exact .nil
  | plain plain ok _ ih => exact .plain plain (sub _ ok) ih
  | literal body _ ih => exact .literal body ih
  | bracket bracket _ _ ihInner ih => exact .bracket bracket ihInner ih

theorem Balanced.of_plain {allowed : Char → Bool} {cs : List Char}
    (h : ∀ c ∈ cs, isPlain c = true ∧ allowed c = true) : Balanced allowed cs := by
  induction cs with
  | nil => exact .nil
  | cons c rest ih =>
    obtain ⟨plain, ok⟩ := h c (List.mem_cons_self ..)
    exact .plain plain ok (ih fun d hd => h d (List.mem_cons_of_mem _ hd))

/-- The same for a given text, where it can be evaluated. -/
theorem Balanced.of_all {allowed : Char → Bool} {cs : List Char}
    (h : (cs.all fun c => isPlain c && allowed c) = true) : Balanced allowed cs :=
  .of_plain fun c hc => Bool.and_eq_true_iff.mp (List.all_eq_true.mp h c hc)

/-! ## Characters -/

theorem isPlain_iff {c : Char} : isPlain c = true ↔ Bracket.ofOpener? c = none ∧
    Bracket.ofCloser? c = none ∧ c ≠ '"' ∧ c ≠ '\n' ∧ c ≠ '#' := by
  simp [isPlain, and_assoc]

/-! ## Line breaks -/

theorem LiteralBody.newline_not_mem {body : List Char} (h : LiteralBody body) : '\n' ∉ body := by
  induction h with
  | nil => exact List.not_mem_nil
  | char _ _ newline _ ih => simp [Ne.symm newline, ih]
  | escape newline _ ih => simp [Ne.symm newline, ih]

/-- A balanced text is one line. -/
theorem Balanced.newline_not_mem {allowed : Char → Bool} {cs : List Char}
    (h : Balanced allowed cs) : '\n' ∉ cs := by
  induction h with
  | nil => exact List.not_mem_nil
  | plain plain _ _ ih => simp [(isPlain_iff.mp plain).2.2.2.1.symm, ih]
  | literal body _ ih => simp [body.newline_not_mem, ih]
  | bracket b _ _ ihInner ih =>
    have opener := (b.ordinary _ (.inl rfl)).2.1.symm
    have closer := (b.ordinary _ (.inr rfl)).2.1.symm
    simp [opener, closer, ihInner, ih]

/-! ## Comments -/

namespace CommentScan

theorem keep_inside {c : Char} (newline : c ≠ '\n') (parens : Nat) (afterBlank : Bool)
    (quote : Quote) (h : quote ≠ .outside) (rest : List Char) :
    keep ⟨false, quote, parens, afterBlank⟩ (c :: rest) =
      c :: keep ⟨false, quote.next c, parens, Text.isBlank c⟩ rest := by
  rw [keep, step]
  simp [h, newline]

theorem keep_literalBody {body : List Char} (h : LiteralBody body) (parens : Nat)
    (afterBlank : Bool) (rest : List Char) :
    keep ⟨false, .inside, parens, afterBlank⟩ (body ++ '"' :: rest) =
      body ++ '"' :: keep ⟨false, .outside, parens, false⟩ rest := by
  induction h generalizing afterBlank with
  | nil => exact keep_inside (by decide) parens afterBlank .inside (by decide) rest
  | char quote backslash newline _ ih =>
    rw [List.cons_append, keep_inside newline parens afterBlank .inside (by decide),
      next_inside quote backslash, ih]
    rfl
  | escape newline _ ih =>
    rw [List.cons_append, List.cons_append,
      keep_inside (by decide) parens afterBlank .inside (by decide),
      keep_inside newline parens _ _ (by decide)]
    simp only [Quote.next, if_true]
    rw [ih]
    rfl

/-- Open parentheses after one more character of a line. -/
def parensAfter (c : Char) (parens : Nat) : Nat :=
  if c = '(' then parens + 1 else if c = ')' then parens - 1 else parens

theorem parensAfter_plain {c : Char} (plain : isPlain c = true) (parens : Nat) :
    parensAfter c parens = parens := by
  obtain ⟨opener, closer, -⟩ := isPlain_iff.mp plain
  have notOpen : c ≠ '(' := by
    rintro rfl
    cases opener
  have notClose : c ≠ ')' := by
    rintro rfl
    cases closer
  rw [parensAfter, if_neg notOpen, if_neg notClose]

theorem parensAfter_closer_opener (b : Bracket) (parens : Nat) :
    parensAfter b.closer (parensAfter b.opener parens) = parens := by
  cases b <;> rfl

/-- A character outside literals that is neither `#` nor a line break. -/
theorem keep_outside {c : Char} (newline : c ≠ '\n') (hash : c ≠ '#') (parens : Nat)
    (afterBlank : Bool) (rest : List Char) :
    keep ⟨false, .outside, parens, afterBlank⟩ (c :: rest) =
      c :: keep ⟨false, Quote.outside.next c, parensAfter c parens, Text.isBlank c⟩ rest := by
  rw [keep, step, parensAfter]
  simp [hash, newline]

theorem keep_quote (parens : Nat) (afterBlank : Bool) (rest : List Char) :
    keep ⟨false, .outside, parens, afterBlank⟩ ('"' :: rest) =
      '"' :: keep ⟨false, .inside, parens, false⟩ rest :=
  keep_outside (by decide) (by decide) parens afterBlank rest

end CommentScan

/-- No comment is stripped from a balanced text. -/
theorem Balanced.keep_eq {allowed : Char → Bool} {cs : List Char} (h : Balanced allowed cs)
    (parens : Nat) (afterBlank : Bool) (rest : List Char) :
    ∃ afterBlank', CommentScan.keep ⟨false, .outside, parens, afterBlank⟩ (cs ++ rest) =
      cs ++ CommentScan.keep ⟨false, .outside, parens, afterBlank'⟩ rest := by
  induction h generalizing parens afterBlank rest with
  | nil => exact ⟨afterBlank, rfl⟩
  | @plain c tail plain _ _ ih =>
    obtain ⟨opener, closer, quote, newline, hash⟩ := isPlain_iff.mp plain
    obtain ⟨after, kept⟩ := ih parens (Text.isBlank c) rest
    refine ⟨after, ?_⟩
    rw [List.cons_append, CommentScan.keep_outside newline hash, next_outside quote,
      CommentScan.parensAfter_plain plain, kept]
    rfl
  | @literal body tail hb _ ih =>
    obtain ⟨after, kept⟩ := ih parens false rest
    refine ⟨after, ?_⟩
    rw [List.cons_append, List.append_assoc, List.cons_append, CommentScan.keep_quote,
      CommentScan.keep_literalBody hb, kept]
    simp
  | @bracket b inner tail _ _ ihInner ih =>
    obtain ⟨quote, newline, hash⟩ := b.ordinary _ (.inl rfl)
    obtain ⟨quote', newline', hash'⟩ := b.ordinary _ (.inr rfl)
    obtain ⟨before, keptInner⟩ := ihInner (CommentScan.parensAfter b.opener parens)
      (Text.isBlank b.opener) (b.closer :: (tail ++ rest))
    obtain ⟨after, kept⟩ := ih parens (Text.isBlank b.closer) rest
    refine ⟨after, ?_⟩
    rw [List.cons_append, List.append_assoc, List.cons_append,
      CommentScan.keep_outside newline hash, next_outside quote, keptInner,
      CommentScan.keep_outside newline' hash', next_outside quote',
      CommentScan.parensAfter_closer_opener, kept]
    simp

/-! ## Balanced texts are enclosed -/

theorem isQuiet_of_isPlain {c : Char} (h : isPlain c = true) : isQuiet c = true := by
  obtain ⟨opener, closer, quote, -, -⟩ := isPlain_iff.mp h
  exact isQuiet_iff.mpr ⟨opener, closer, quote⟩

theorem LiteralBody.literalText {body : List Char} (h : LiteralBody body) : LiteralText body := by
  induction h with
  | nil => exact .nil
  | char quote backslash _ _ ih => exact .char quote backslash ih
  | escape _ _ ih => exact .escape ih

/-- The scanners of brackets and operators see an enclosed text. -/
theorem Balanced.enclosed {allowed : Char → Bool} {cs : List Char} (h : Balanced allowed cs) :
    Enclosed allowed cs := by
  induction h with
  | nil => exact .nil
  | plain plain ok _ ih => exact .quiet (isQuiet_of_isPlain plain) ok ih
  | literal hb _ ih => exact .literal hb.literalText ih
  | bracket b _ _ ihInner ih => exact .bracket b (ihInner.mono fun _ _ => rfl) ih

/-- As many brackets close in a balanced text as open. -/
theorem Balanced.openDepth_eq {allowed : Char → Bool} {cs : List Char} (h : Balanced allowed cs) :
    openDepth cs = 0 := by
  have passed := h.enclosed.depthFrom_eq []
  rwa [List.append_nil] at passed

end CapabilityPipeline.Source
