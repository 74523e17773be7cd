import CapabilityPipeline.Proofs.Source.Positions
import Mathlib.Order.Bounds.Basic

/-!
# The closing bracket of a text

The search for the bracket that closes the first one stops where the account of literals and
brackets is closed for the first time. So it stops behind the shortest front of the text that the
search for an operator accepts, and finds a bracket in every text that is accepted as a whole.

Results:

* `ClosesAtEnd`, `closesAtEnd_of_splitCloseFrom`: what the search takes.
* `exists_splitCloseFrom`: the search stops if some front of the text closes the account.
* `matchingClose_isLeast`: the closing bracket ends the shortest accepted front.
* `Accepts.splitClose_eq`: an accepted text from a bracket on is two accepted texts.
-/

namespace CapabilityPipeline.Source

open Text

/-! ## The search -/

/-- The account is closed behind a text, and behind no shorter front of it. -/
structure ClosesAtEnd (l : Level) (cs : List Char) : Prop where
  closes : l.after cs = some .top
  first : ∀ front back, cs = front ++ back → l.after front = some .top → back = []

variable {l m : Level} {c : Char} {cs inner rest : List Char}

theorem closesAtEnd_nil : ClosesAtEnd .top [] := by
  refine ⟨rfl, ?_⟩
  intro front back same _
  exact (List.append_eq_nil_iff.mp same.symm).2

theorem ClosesAtEnd.cons (h : ClosesAtEnd m cs) (notTop : l ≠ .top) (stands : l.next c = some m) :
    ClosesAtEnd l (c :: cs) := by
  constructor
  · rw [Level.after_cons, stands, Option.bind_some, h.closes]
  · intro front back same closed
    cases front with
    | nil => exact absurd (Option.some.inj closed) notTop
    | cons d front =>
      cases same
      rw [Level.after_cons, stands, Option.bind_some] at closed
      exact h.first front back rfl closed

theorem ne_top_of_nesting (inside : l.nesting ≠ []) : l ≠ .top := by
  rintro rfl
  exact inside rfl

/-- What the search takes closes the account at its end. -/
theorem closesAtEnd_of_splitCloseFrom (inside : l.nesting ≠ [])
    (h : splitCloseFrom l.quote l.nesting cs = some (inner, rest)) :
    cs = inner ++ rest ∧ ClosesAtEnd l inner := by
  induction cs generalizing l inner with
  | nil =>
    obtain ⟨quote, nesting⟩ := l
    cases quote <;> cases h
  | cons c tail ih =>
    rw [splitCloseFrom_cons inside] at h
    obtain ⟨m, stands, h⟩ := Option.bind_eq_some_iff.mp h
    split at h
    · next top =>
      cases h
      subst top
      exact ⟨rfl, closesAtEnd_nil.cons (ne_top_of_nesting inside) stands⟩
    · next notTop =>
      obtain ⟨⟨more, behind⟩, found, same⟩ := Option.map_eq_some_iff.mp h
      cases same
      obtain ⟨rfl, closes⟩ := ih ((Level.next_eq_top_or inside stands).resolve_left notTop) found
      exact ⟨rfl, closes.cons (ne_top_of_nesting inside) stands⟩

/-- The search stops if some front of the text closes the account. -/
theorem exists_splitCloseFrom (inside : l.nesting ≠ []) {front back : List Char}
    (h : l.after front = some .top) :
    ∃ found, splitCloseFrom l.quote l.nesting (front ++ back) = some found := by
  induction front generalizing l with
  | nil => exact absurd (Option.some.inj h) (ne_top_of_nesting inside)
  | cons c front ih =>
    rw [Level.after_cons] at h
    obtain ⟨m, stands, h⟩ := Option.bind_eq_some_iff.mp h
    rw [List.cons_append, splitCloseFrom_cons inside, stands, Option.bind_some]
    split
    · exact ⟨_, rfl⟩
    · next notTop =>
      obtain ⟨found, search⟩ := ih ((Level.next_eq_top_or inside stands).resolve_left notTop) h
      exact ⟨_, by rw [search]; rfl⟩

/-! ## Bracketed texts at the front -/

/-- The account behind an opening bracket. -/
theorem after_opener (b : Bracket) (cs : List Char) :
    Level.top.after (b.opener :: cs) = (⟨.outside, [b]⟩ : Level).after cs := by
  rw [Level.after_cons, Level.next_opener rfl, Option.bind_some]
  rfl

theorem splitClose_opener (b : Bracket) (tail : List Char) :
    splitClose (b.opener :: tail) =
      (splitCloseFrom .outside [b] tail).map (beforeFirst [b.opener]) := by
  rw [splitClose, b.ofOpener?_opener]
  rfl

/-- What is split off is closed, and it is in front of all else that is closed. -/
theorem prefix_of_splitClose {b : Bracket} {tail bracketed : List Char}
    (h : splitClose (b.opener :: tail) = some (bracketed, rest)) :
    b.opener :: tail = bracketed ++ rest ∧ bracketed ≠ [] ∧
      Level.top.after bracketed = some .top ∧
      ∀ front, front <+: b.opener :: tail → front ≠ [] → Level.top.after front = some .top →
        bracketed <+: front := by
  rw [splitClose_opener] at h
  obtain ⟨⟨inner, behind⟩, found, same⟩ := Option.map_eq_some_iff.mp h
  cases same
  obtain ⟨rfl, closes⟩ := closesAtEnd_of_splitCloseFrom (l := ⟨.outside, [b]⟩)
    (List.cons_ne_nil _ _) found
  refine ⟨rfl, List.cons_ne_nil _ _, by rw [List.singleton_append, after_opener, closes.closes], ?_⟩
  intro front isFront nonempty closed
  obtain ⟨d, more, rfl⟩ := List.exists_cons_of_ne_nil nonempty
  obtain ⟨rfl, inTail⟩ := List.cons_prefix_cons.mp isFront
  rw [after_opener] at closed
  rw [List.singleton_append, List.cons_prefix_cons]
  refine ⟨rfl, ?_⟩
  rcases List.prefix_or_prefix_of_prefix (List.prefix_append inner _) inTail with le | ge
  · exact le
  · obtain ⟨back, rfl⟩ := ge
    rw [closes.first more back rfl closed, List.append_nil]

/-- Something is split off a text with a front that is closed. -/
theorem exists_splitClose {b : Bracket} {tail front back : List Char}
    (same : b.opener :: tail = front ++ back) (nonempty : front ≠ [])
    (closed : Level.top.after front = some .top) :
    ∃ bracketed rest, splitClose (b.opener :: tail) = some (bracketed, rest) := by
  obtain ⟨d, more, rfl⟩ := List.exists_cons_of_ne_nil nonempty
  rw [List.cons_append, List.cons.injEq] at same
  obtain ⟨rfl, rfl⟩ := same
  rw [after_opener] at closed
  obtain ⟨⟨inner, rest⟩, found⟩ :
      ∃ found, splitCloseFrom .outside [b] (more ++ back) = some found :=
    exists_splitCloseFrom (l := ⟨.outside, [b]⟩) (List.cons_ne_nil _ _) closed
  exact ⟨_, _, by rw [splitClose_opener, found]; rfl⟩

/-! ## Offsets of closing brackets -/

/-- The text up to a byte offset, with the byte there, is accepted. -/
def AcceptsUpTo (op : Operator) (cs : List Char) (offset : Nat) : Prop :=
  ∃ front back, cut (offset + 1) cs = some (front, back) ∧ Accepts op front

theorem byteCount_pos {cs : List Char} (nonempty : cs ≠ []) : 0 < byteCount cs := by
  obtain ⟨c, rest, rfl⟩ := List.exists_cons_of_ne_nil nonempty
  have positive := c.utf8Size_pos
  rw [byteCount_cons]
  omega

/-- What is split off ends with the byte at the offset of the closing bracket. -/
theorem matchingClose_eq_some_iff {b : Bracket} {tail : List Char} {k : Nat} :
    matchingClose (b.opener :: tail) = some k ↔ ∃ bracketed rest,
      splitClose (b.opener :: tail) = some (bracketed, rest) ∧ byteCount bracketed = k + 1 := by
  rw [matchingClose, Option.map_eq_some_iff]
  constructor
  · rintro ⟨⟨bracketed, rest⟩, found, rfl⟩
    have positive := byteCount_pos (prefix_of_splitClose found).2.1
    refine ⟨bracketed, rest, found, ?_⟩
    dsimp only
    omega
  · rintro ⟨bracketed, rest, found, count⟩
    refine ⟨(bracketed, rest), found, ?_⟩
    dsimp only
    omega

/-- **The closing bracket ends the shortest front that is accepted.** -/
theorem matchingClose_isLeast (op : Operator) (b : Bracket) (tail : List Char) (k : Nat) :
    matchingClose (b.opener :: tail) = some k ↔
      IsLeast {offset | AcceptsUpTo op (b.opener :: tail) offset} k := by
  have least {k : Nat} (h : matchingClose (b.opener :: tail) = some k) :
      IsLeast {offset | AcceptsUpTo op (b.opener :: tail) offset} k := by
    obtain ⟨bracketed, rest, found, count⟩ := matchingClose_eq_some_iff.mp h
    obtain ⟨whole, -, closed, first⟩ := prefix_of_splitClose found
    constructor
    · exact ⟨bracketed, rest, cut_eq_some_iff.mpr ⟨whole, count⟩, accepts_iff.mpr closed⟩
    · rintro offset ⟨front, back, isCut, accepted⟩
      obtain ⟨same, size⟩ := cut_eq_some_iff.mp isCut
      have nonempty : front ≠ [] := by
        rintro rfl
        cases size
      obtain ⟨more, rfl⟩ := first front ⟨back, same.symm⟩ nonempty (accepts_iff.mp accepted)
      rw [byteCount_append] at size
      omega
  constructor
  · exact least
  · intro isLeast
    obtain ⟨front, back, isCut, accepted⟩ := isLeast.1
    obtain ⟨same, size⟩ := cut_eq_some_iff.mp isCut
    have nonempty : front ≠ [] := by
      rintro rfl
      cases size
    obtain ⟨bracketed, rest, found⟩ := exists_splitClose same nonempty (accepts_iff.mp accepted)
    have positive := byteCount_pos (prefix_of_splitClose found).2.1
    have closes : matchingClose (b.opener :: tail) = some (byteCount bracketed - 1) :=
      matchingClose_eq_some_iff.mpr ⟨bracketed, rest, found, by omega⟩
    rw [closes, (least closes).unique isLeast]

example : matchingClose "(\"é)\"[])]".toList = some 8 := by decide

/-- **An accepted text from a bracket on is two accepted texts**, of which the first ends with the
closing bracket. -/
theorem Accepts.splitClose_eq {op : Operator} {b : Bracket} {tail : List Char}
    (h : Accepts op (b.opener :: tail)) :
    ∃ bracketed rest, splitClose (b.opener :: tail) = some (bracketed, rest) ∧
      Accepts op bracketed ∧ Accepts op rest := by
  obtain ⟨bracketed, rest, found⟩ := exists_splitClose (List.append_nil _).symm
    (List.cons_ne_nil _ _) (accepts_iff.mp h)
  obtain ⟨whole, -, closed, -⟩ := prefix_of_splitClose found
  have first : Accepts op bracketed := accepts_iff.mpr closed
  exact ⟨bracketed, rest, found, first, first.of_append (whole ▸ h)⟩

end CapabilityPipeline.Source
