import CapabilityPipeline.Source.Statement

/-!
# Enclosed texts

A text is enclosed when its string literals end and its brackets match outside them. What stands
inside brackets or literals has no meaning to the scanner that looks for a closing bracket or for
an operator, so it may be any text, line breaks and operators included. That scanner closes a
bracket exactly behind an enclosed text.

Results:

* `Enclosed`: enclosed texts whose characters outside literals and brackets are all allowed.
* `Enclosed.depthFrom_eq`: an enclosed text leaves the depth of brackets as it is.
* `splitClose_eq_some_iff`: a bracketed text at the front is an enclosed text between a bracket
  and the one that closes it.
-/

namespace CapabilityPipeline.Source

/-! ## Characters -/

/-- A character that is no bracket and no quote. -/
def isQuiet (c : Char) : Bool :=
  (Bracket.ofOpener? c).isNone && (Bracket.ofCloser? c).isNone && c != '"'

theorem isQuiet_iff {c : Char} : isQuiet c = true ↔
    Bracket.ofOpener? c = none ∧ Bracket.ofCloser? c = none ∧ c ≠ '"' := by
  simp [isQuiet, and_assoc]

/-- Characters of a class without brackets and quotes. -/
theorem isQuiet_of_class (isMember : Char → Bool)
    (outside : ['(', ')', '[', ']', '\x7b', '\x7d', '"'].any isMember = false) {c : Char}
    (h : isMember c = true) : isQuiet c = true := by
  have other : ∀ m ∈ ['(', ')', '[', ']', '\x7b', '\x7d', '"'], m ≠ c := by
    rintro m hm rfl
    exact List.any_eq_false.mp outside m hm h
  simp only [List.forall_mem_cons, List.not_mem_nil, false_implies, implies_true, and_true] at other
  simp [isQuiet, Bracket.ofOpener?, Bracket.ofCloser?, Bracket.opener, Bracket.closer, other,
    Ne.symm]

namespace Bracket

theorem ofOpener?_opener (b : Bracket) : ofOpener? b.opener = some b := by
  cases b <;> rfl

theorem ofOpener?_closer (b : Bracket) : ofOpener? b.closer = none := by
  cases b <;> rfl

theorem ofCloser?_closer (b : Bracket) : ofCloser? b.closer = some b := by
  cases b <;> rfl

theorem eq_opener {b : Bracket} {c : Char} (h : ofOpener? c = some b) : c = b.opener := by
  have found := List.find?_some h
  exact (of_decide_eq_true found).symm

theorem eq_closer {b : Bracket} {c : Char} (h : ofCloser? c = some b) : c = b.closer := by
  have found := List.find?_some h
  exact (of_decide_eq_true found).symm

/-- Brackets have no meaning to other scanners than those of brackets. -/
theorem ordinary (b : Bracket) (c : Char) (h : c = b.opener ∨ c = b.closer) :
    c ≠ '"' ∧ c ≠ '\n' ∧ c ≠ '#' := by
  rcases h with rfl | rfl <;> cases b <;> decide

end Bracket

theorem next_outside {c : Char} (h : c ≠ '"') : Quote.outside.next c = .outside := by
  rw [Quote.next, if_neg h]

theorem next_inside {c : Char} (quote : c ≠ '"') (backslash : c ≠ '\\') :
    Quote.inside.next c = .inside := by
  rw [Quote.next, if_neg backslash, if_neg quote]

/-! ## Texts -/

/-- The text of a string literal between its quotes. -/
inductive LiteralText : List Char → Prop
  | nil : LiteralText []
  | char {c : Char} {rest : List Char} (quote : c ≠ '"') (backslash : c ≠ '\\')
      (h : LiteralText rest) : LiteralText (c :: rest)
  | escape {c : Char} {rest : List Char} (h : LiteralText rest) : LiteralText ('\\' :: c :: rest)

/-- A text of literals, matching brackets and other characters that are allowed. Inside brackets
all are. -/
inductive Enclosed : (Char → Bool) → List Char → Prop
  | nil {allowed : Char → Bool} : Enclosed allowed []
  | quiet {allowed : Char → Bool} {c : Char} {rest : List Char} (quiet : isQuiet c = true)
      (ok : allowed c = true) (h : Enclosed allowed rest) : Enclosed allowed (c :: rest)
  | literal {allowed : Char → Bool} {body rest : List Char} (hb : LiteralText body)
      (h : Enclosed allowed rest) : Enclosed allowed ('"' :: (body ++ '"' :: rest))
  | bracket {allowed : Char → Bool} (b : Bracket) {inner rest : List Char}
      (hi : Enclosed (fun _ => true) inner) (h : Enclosed allowed rest) :
      Enclosed allowed (b.opener :: (inner ++ b.closer :: rest))

namespace Enclosed

variable {allowed permitted : Char → Bool} {cs : List Char}

theorem append {a b : List Char} (ha : Enclosed allowed a) (hb : Enclosed allowed b) :
    Enclosed allowed (a ++ b) := by
  induction ha with
  | nil => exact hb
  | quiet quiet ok _ ih => exact .quiet quiet ok (ih hb)
  | literal body _ ih =>
    rw [List.cons_append, List.append_assoc, List.cons_append]
    exact .literal body (ih hb)
  | bracket bracket inner _ _ ih =>
    rw [List.cons_append, List.append_assoc, List.cons_append]
    exact .bracket bracket inner (ih hb)

theorem mono (h : Enclosed allowed cs) (sub : ∀ c, allowed c = true → permitted c = true) :
    Enclosed permitted cs := by
  induction h with
  | nil => exact .nil
  | quiet quiet ok _ ih => exact .quiet quiet (sub _ ok) (ih sub)
  | literal body _ ih => exact .literal body (ih sub)
  | bracket bracket inner _ _ ih => exact .bracket bracket inner (ih sub)

theorem of_quiet (h : ∀ c ∈ cs, isQuiet c = true ∧ allowed c = true) : Enclosed allowed cs := by
  induction cs with
  | nil => exact .nil
  | cons c rest ih =>
    obtain ⟨⟨quiet, ok⟩, later⟩ := List.forall_mem_cons.mp h
    exact .quiet quiet ok (ih later)

/-- A text in brackets. -/
theorem bracketed (b : Bracket) (hi : Enclosed (fun _ => true) cs) :
    Enclosed allowed (b.opener :: (cs ++ [b.closer])) :=
  .bracket b hi .nil

end Enclosed

/-! ## Depth -/

theorem depthFrom_literalText {body : List Char} (h : LiteralText body) (rest : List Char) :
    depthFrom .inside (body ++ '"' :: rest) = depthFrom .outside rest := by
  induction h with
  | nil =>
    rw [List.nil_append, depthFrom]
    · rfl
    · simp
  | char quote backslash _ ih =>
    rw [List.cons_append, depthFrom, next_inside quote backslash, ih]
    simp
  | escape _ ih =>
    rw [List.cons_append, List.cons_append, depthFrom, depthFrom]
    · exact ih
    all_goals simp [Quote.next]

/-- An enclosed text leaves the depth of brackets as it is. -/
theorem Enclosed.depthFrom_eq {allowed : Char → Bool} {cs : List Char} (h : Enclosed allowed cs)
    (rest : List Char) : depthFrom .outside (cs ++ rest) = depthFrom .outside rest := by
  induction h generalizing rest with
  | nil => rfl
  | quiet quiet _ _ ih =>
    obtain ⟨opener, closer, quote⟩ := isQuiet_iff.mp quiet
    rw [List.cons_append, depthFrom, opener, closer, next_outside quote, ih]
    simp
  | literal hb _ ih =>
    rw [List.cons_append, List.append_assoc, List.cons_append, depthFrom]
    have inside : Quote.outside.next '"' = .inside := rfl
    rw [inside, depthFrom_literalText hb, ih]
    simp [Bracket.ofOpener?, Bracket.ofCloser?, Bracket.opener, Bracket.closer]
  | bracket b _ _ ihInner ih =>
    rw [List.cons_append, List.append_assoc, List.cons_append, depthFrom,
      next_outside (b.ordinary _ (.inl rfl)).1, ihInner, depthFrom,
      next_outside (b.ordinary _ (.inr rfl)).1, ih, b.ofOpener?_opener, b.ofOpener?_closer,
      b.ofCloser?_closer]
    simp only [Option.isSome_some, Option.isSome_none, Bool.false_eq_true, if_true, if_false]
    omega

/-! ## Matching brackets -/

/-- A text in front of the first part of a split text. -/
def beforeFirst (cs : List Char) : List Char × List Char → List Char × List Char
  | (inner, after) => (cs ++ inner, after)

theorem map_cons_beforeFirst (c : Char) (cs : List Char) (x : Option (List Char × List Char)) :
    (x.map (beforeFirst cs)).map (fun (inner, after) => (c :: inner, after)) =
      x.map (beforeFirst (c :: cs)) := by
  cases x <;> rfl

/-- Inside a literal no bracket has a meaning. -/
theorem splitCloseFrom_quoted {quote : Quote} (inside : quote ≠ .outside)
    (nesting : List Bracket) (c : Char) (rest : List Char) :
    splitCloseFrom quote nesting (c :: rest) =
      (splitCloseFrom (quote.next c) nesting rest).map (beforeFirst [c]) := by
  cases quote with
  | outside => exact absurd rfl inside
  | inside | escaped =>
    rw [splitCloseFrom]
    · rfl
    · exact inside

theorem splitCloseFrom_literalText {body : List Char} (h : LiteralText body)
    (nesting : List Bracket) (rest : List Char) :
    splitCloseFrom .inside nesting (body ++ '"' :: rest) =
      (splitCloseFrom .outside nesting rest).map (beforeFirst (body ++ ['"'])) := by
  induction h with
  | nil => exact splitCloseFrom_quoted (by decide) nesting '"' rest
  | char quote backslash _ ih =>
    rw [List.cons_append, splitCloseFrom_quoted (by decide), next_inside quote backslash, ih]
    exact map_cons_beforeFirst ..
  | @escape c body _ ih =>
    rw [List.cons_append, List.cons_append, splitCloseFrom_quoted (by decide),
      splitCloseFrom_quoted (by decide)]
    have back : (Quote.inside.next '\\').next c = .inside := rfl
    rw [back, ih]
    cases splitCloseFrom .outside nesting rest <;> rfl

/-- An enclosed text inside brackets does not close them. -/
theorem Enclosed.splitCloseFrom_eq {allowed : Char → Bool} {cs : List Char}
    (h : Enclosed allowed cs) (b : Bracket) (nesting : List Bracket) (rest : List Char) :
    splitCloseFrom .outside (b :: nesting) (cs ++ rest) =
      (splitCloseFrom .outside (b :: nesting) rest).map (beforeFirst cs) := by
  induction h generalizing b nesting rest with
  | nil =>
    rw [List.nil_append]
    cases splitCloseFrom .outside (b :: nesting) rest <;> rfl
  | quiet quiet _ _ ih =>
    obtain ⟨opener, closer, quote⟩ := isQuiet_iff.mp quiet
    rw [List.cons_append, splitCloseFrom, opener, closer, next_outside quote]
    dsimp only
    rw [ih]
    exact map_cons_beforeFirst ..
  | literal hb _ ih =>
    rw [List.cons_append, List.append_assoc, List.cons_append, splitCloseFrom]
    have opener : Bracket.ofOpener? '"' = none := rfl
    have closer : Bracket.ofCloser? '"' = none := rfl
    have inside : Quote.outside.next '"' = .inside := rfl
    rw [opener, closer, inside]
    dsimp only
    rw [splitCloseFrom_literalText hb, ih]
    cases splitCloseFrom .outside (b :: nesting) rest <;> simp [beforeFirst]
  | bracket c _ _ ihInner ih =>
    rw [List.cons_append, List.append_assoc, List.cons_append, splitCloseFrom, c.ofOpener?_opener]
    dsimp only
    rw [ihInner, splitCloseFrom, c.ofOpener?_closer, c.ofCloser?_closer]
    dsimp only
    rw [if_pos rfl, ih]
    cases splitCloseFrom .outside (b :: nesting) rest <;> simp [beforeFirst]

/-- Brackets around an enclosed text match each other. -/
theorem Enclosed.splitClose_eq {allowed : Char → Bool} {inner : List Char}
    (h : Enclosed allowed inner) (b : Bracket) (rest : List Char) :
    splitClose (b.opener :: (inner ++ b.closer :: rest)) =
      some (b.opener :: (inner ++ [b.closer]), rest) := by
  rw [splitClose, b.ofOpener?_opener]
  dsimp only
  rw [h.splitCloseFrom_eq, splitCloseFrom, b.ofOpener?_closer, b.ofCloser?_closer]
  simp [beforeFirst]

/-- A text that closes the brackets that are open, innermost first, each behind an enclosed
text. -/
inductive Closes : List Bracket → List Char → Prop
  | done : Closes [] []
  | closed (b : Bracket) {nesting : List Bracket} {inner rest : List Char}
      (hi : Enclosed (fun _ => true) inner) (h : Closes nesting rest) :
      Closes (b :: nesting) (inner ++ b.closer :: rest)

theorem Closes.prepend {b : Bracket} {nesting : List Bracket} {front cs : List Char}
    (h : Closes (b :: nesting) cs) (hf : Enclosed (fun _ => true) front) :
    Closes (b :: nesting) (front ++ cs) := by
  cases h with
  | closed _ hi h =>
    rw [← List.append_assoc]
    exact .closed b (hf.append hi) h

/-- A bracket that is opened is closed before those around it. -/
theorem Closes.opened {b outer : Bracket} {nesting : List Bracket} {cs : List Char}
    (h : Closes (b :: outer :: nesting) cs) : Closes (outer :: nesting) (b.opener :: cs) := by
  cases h with
  | @closed _ _ inner rest hi h =>
    have shape : b.opener :: (inner ++ b.closer :: rest) =
        (b.opener :: (inner ++ [b.closer])) ++ rest := by simp
    rw [shape]
    exact h.prepend (.bracketed b hi)

/-- The same for a scanner that may stand inside a literal, which ends first. -/
def ClosesFrom : Quote → List Bracket → List Char → Prop
  | .outside, nesting, cs => Closes nesting cs
  | .inside, nesting, cs =>
    ∃ body rest, LiteralText body ∧ Closes nesting rest ∧ cs = body ++ '"' :: rest
  | .escaped, nesting, cs =>
    ∃ c body rest, LiteralText body ∧ Closes nesting rest ∧ cs = c :: (body ++ '"' :: rest)

theorem ClosesFrom.quoted {quote : Quote} (inside : quote ≠ .outside) {nesting : List Bracket}
    {c : Char} {cs : List Char} (h : ClosesFrom (quote.next c) nesting cs) :
    ClosesFrom quote nesting (c :: cs) := by
  cases quote with
  | outside => exact absurd rfl inside
  | inside =>
    by_cases backslash : c = '\\'
    · subst backslash
      obtain ⟨d, body, rest, hb, closes, rfl⟩ := h
      exact ⟨'\\' :: d :: body, rest, .escape hb, closes, rfl⟩
    by_cases quote : c = '"'
    · subst quote
      exact ⟨[], cs, .nil, h, rfl⟩
    rw [next_inside quote backslash] at h
    obtain ⟨body, rest, hb, closes, rfl⟩ := h
    exact ⟨c :: body, rest, .char quote backslash hb, closes, rfl⟩
  | escaped =>
    obtain ⟨body, rest, hb, closes, rfl⟩ := h
    exact ⟨c, body, rest, hb, closes, rfl⟩

/-- A character outside literals that is no bracket. -/
theorem ClosesFrom.passed {b : Bracket} {nesting : List Bracket} {c : Char} {cs : List Char}
    (opener : Bracket.ofOpener? c = none) (closer : Bracket.ofCloser? c = none)
    (h : ClosesFrom (Quote.outside.next c) (b :: nesting) cs) :
    Closes (b :: nesting) (c :: cs) := by
  by_cases quote : c = '"'
  · subst quote
    obtain ⟨body, rest, hb, closes, rfl⟩ := h
    have shape : '"' :: (body ++ '"' :: rest) = ('"' :: (body ++ ['"'])) ++ rest := by simp
    rw [shape]
    exact closes.prepend (.literal hb .nil)
  · rw [next_outside quote] at h
    exact Closes.prepend h (.quiet (isQuiet_iff.mpr ⟨opener, closer, quote⟩) rfl .nil)

/-- What the scanner takes closes the open brackets. -/
theorem closes_of_splitCloseFrom {quote : Quote} {b : Bracket} {nesting : List Bracket}
    {cs inner rest : List Char}
    (h : splitCloseFrom quote (b :: nesting) cs = some (inner, rest)) :
    cs = inner ++ rest ∧ ClosesFrom quote (b :: nesting) inner := by
  induction cs generalizing quote b nesting inner with
  | nil => cases quote <;> cases h
  | cons c tail ih =>
    have later {quote : Quote} {b : Bracket} {nesting : List Bracket}
        (h : (splitCloseFrom quote (b :: nesting) tail).map (beforeFirst [c]) =
          some (inner, rest)) :
        ∃ more, inner = c :: more ∧ tail = more ++ rest ∧ ClosesFrom quote (b :: nesting) more := by
      obtain ⟨⟨more, after⟩, found, same⟩ := Option.map_eq_some_iff.mp h
      cases same
      exact ⟨more, rfl, ih found⟩
    by_cases place : quote = .outside
    · subst place
      rw [splitCloseFrom] at h
      split at h
      · next d opener =>
        obtain ⟨more, rfl, rfl, closes⟩ := later h
        refine ⟨rfl, ?_⟩
        rw [Bracket.eq_opener opener]
        exact Closes.opened closes
      · next d opener closer =>
        split at h
        · next none => cases none
        · next outermost single =>
          cases single
          split at h
          · next same =>
            cases h
            refine ⟨rfl, ?_⟩
            rw [Bracket.eq_closer closer, ← same]
            exact .closed b .nil .done
          · cases h
        · next innermost outer some same =>
          cases same
          split at h
          · next same =>
            cases nesting with
            | nil => exact absurd rfl some
            | cons outer nesting =>
              obtain ⟨more, rfl, rfl, closes⟩ := later h
              refine ⟨rfl, ?_⟩
              rw [Bracket.eq_closer closer, ← same]
              exact .closed b .nil closes
          · cases h
      · next opener closer =>
        obtain ⟨more, rfl, rfl, closes⟩ := later h
        exact ⟨rfl, ClosesFrom.passed opener closer closes⟩
    · rw [splitCloseFrom_quoted place] at h
      obtain ⟨more, rfl, rfl, closes⟩ := later h
      exact ⟨rfl, closes.quoted place⟩

/-- **A bracketed text at the front of another is an enclosed text between a bracket and the one
that closes it.** -/
theorem splitClose_eq_some_iff {cs bracketed rest : List Char} :
    splitClose cs = some (bracketed, rest) ↔
      ∃ (b : Bracket) (inner : List Char), Enclosed (fun _ => true) inner ∧
        bracketed = b.opener :: (inner ++ [b.closer]) ∧ cs = bracketed ++ rest := by
  constructor
  · intro h
    cases cs with
    | nil => cases h
    | cons c tail =>
      rw [splitClose] at h
      split at h
      · cases h
      · next b opener =>
        obtain ⟨⟨inner, after⟩, found, same⟩ := Option.map_eq_some_iff.mp h
        cases same
        obtain ⟨rfl, closes⟩ := closes_of_splitCloseFrom found
        cases closes with
        | closed _ hi ended =>
          cases ended
          exact ⟨b, _, hi, by rw [Bracket.eq_opener opener], rfl⟩
  · rintro ⟨b, inner, hi, rfl, rfl⟩
    rw [List.cons_append, List.append_assoc, List.singleton_append]
    exact hi.splitClose_eq b rest

end CapabilityPipeline.Source
