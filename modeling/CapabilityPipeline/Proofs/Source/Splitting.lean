import CapabilityPipeline.Proofs.Program.Composition
import CapabilityPipeline.Proofs.Results

/-!
# What was split

A text that the splitting scanner accepts ends outside literals with every bracket closed. The
ways the scanner moves on are the rules of a relation, and what holds of all accepted texts is
proved by induction on it.

Results:

* `Splits`: a text falls into parts, from a given place on.
* `splits_of_piecesFrom`: the parts that the scanner finds.
* `joinWith_of_pieces`: the parts with the operator between them are the text.
* `openDepth_of_pieces`: in an accepted text as many brackets close as open.
-/

namespace CapabilityPipeline.Source

open Text

/-- A text falls into parts at top-level occurrences of an operator, for a scanner that stands
somewhere relative to literals and has passed some open brackets. -/
inductive Splits (op : Operator) :
    Quote → List Bracket → List Char → List (List Char) → Prop
  | done : Splits op .outside [] [] [[]]
  | quoted {quote : Quote} {nesting : List Bracket} {c : Char} {rest : List Char}
      {parts : List (List Char)} (inside : quote ≠ .outside)
      (h : Splits op (quote.next c) nesting rest parts) :
      Splits op quote nesting (c :: rest) (consFirst c parts)
  | opened {nesting : List Bracket} {c : Char} {rest : List Char} {parts : List (List Char)}
      (b : Bracket) (opener : Bracket.ofOpener? c = some b)
      (h : Splits op .outside (b :: nesting) rest parts) :
      Splits op .outside nesting (c :: rest) (consFirst c parts)
  | closed {nesting : List Bracket} {c : Char} {rest : List Char} {parts : List (List Char)}
      (b : Bracket) (opener : Bracket.ofOpener? c = none) (closer : Bracket.ofCloser? c = some b)
      (h : Splits op .outside nesting rest parts) :
      Splits op .outside (b :: nesting) (c :: rest) (consFirst c parts)
  | separated {rest : List Char} {parts : List (List Char)}
      (h : Splits op .outside [] rest parts) :
      Splits op .outside [] (op.symbol ++ rest) ([] :: parts)
  | passed {nesting : List Bracket} {c : Char} {rest : List Char} {parts : List (List Char)}
      (opener : Bracket.ofOpener? c = none) (closer : Bracket.ofCloser? c = none)
      (h : Splits op (Quote.outside.next c) nesting rest parts) :
      Splits op .outside nesting (c :: rest) (consFirst c parts)

variable {op : Operator} {quote : Quote} {nesting : List Bracket} {cs : List Char}
  {parts : List (List Char)}

/-! ## The scanner -/

/-- The characters of an operator that are pending are passed over. -/
theorem piecesFrom_pending (op : Operator) (s : SplitScan) (front rest : List Char) :
    piecesFrom op { s with pending := front.length } (front ++ rest) =
      piecesFrom op { s with offset := s.offset + byteCount front, pending := 0 } rest := by
  induction front generalizing s with
  | nil => rfl
  | cons c front ih =>
    rw [List.cons_append, piecesFrom]
    simp only [List.length_cons, Nat.zero_lt_succ, gt_iff_lt, if_true, Nat.add_sub_cancel]
    rw [ih { s with offset := s.offset + c.utf8Size }, byteCount_cons, Nat.add_assoc]

/-- Behind the first character of an operator the scanner goes on behind the operator. -/
theorem piecesFrom_operator {c : Char} {rest : List Char}
    (isFront : op.symbol.isPrefixOf (c :: rest) = true) (offset : Nat) :
    ∃ tail offset', c :: rest = op.symbol ++ tail ∧ tail.length < (c :: rest).length ∧
      piecesFrom op ⟨offset, .outside, [], op.symbol.length - 1⟩ rest =
        piecesFrom op ⟨offset', .outside, [], 0⟩ tail := by
  obtain ⟨tail, same⟩ := List.isPrefixOf_iff_prefix.mp isFront
  obtain ⟨front, symbol⟩ : ∃ front, op.symbol = c :: front := by
    cases op <;> cases same <;> exact ⟨_, rfl⟩
  rw [symbol, List.cons_append, List.cons.injEq] at same
  refine ⟨tail, offset + byteCount front, ?_, ?_, ?_⟩
  · rw [symbol, List.cons_append, same.2]
  · rw [← same.2, List.length_cons, List.length_append]
    omega
  · rw [← same.2, symbol, List.length_cons, Nat.add_sub_cancel]
    exact piecesFrom_pending op ⟨offset, .outside, [], 0⟩ front tail

/-- **What the scanner accepts falls into the parts it finds.** -/
theorem splits_of_piecesFrom {offset : Nat}
    (h : piecesFrom op ⟨offset, quote, nesting, 0⟩ cs = .ok parts) :
    Splits op quote nesting cs parts := by
  -- An operator is passed over as a whole, so the rest is not always one character shorter.
  induction length : cs.length using Nat.strongRecOn
    generalizing offset quote nesting cs parts with
  | ind n ih =>
  subst length
  cases cs with
  | nil =>
    rw [piecesFrom] at h
    split at h
    · cases h
    next ended =>
    obtain rfl : quote = .outside := Decidable.not_not.mp ended
    cases nesting with
    | cons b nesting => cases h
    | nil =>
      cases h
      exact .done
  | cons c rest =>
    rw [piecesFrom] at h
    simp only [gt_iff_lt, Nat.lt_irrefl, if_false] at h
    split at h
    · next inside =>
      obtain ⟨others, later, rfl⟩ := map_eq_ok.mp h
      exact .quoted inside (ih _ (Nat.lt_succ_self _) later rfl)
    next outside =>
    obtain rfl : quote = .outside := Decidable.not_not.mp outside
    split at h
    · next b opener =>
      obtain ⟨others, later, rfl⟩ := map_eq_ok.mp h
      exact .opened b opener (ih _ (Nat.lt_succ_self _) later rfl)
    · next b opener closer =>
      split at h
      · cases h
      next innermost outer =>
      split at h
      · next same =>
        subst same
        obtain ⟨others, later, rfl⟩ := map_eq_ok.mp h
        exact .closed innermost opener closer (ih _ (Nat.lt_succ_self _) later rfl)
      · cases h
    · next opener closer =>
      split at h
      · next atTop =>
        obtain ⟨none, isFront⟩ := atTop
        subst none
        obtain ⟨others, later, rfl⟩ := map_eq_ok.mp h
        obtain ⟨tail, _, same, shorter, skipped⟩ := piecesFrom_operator isFront _
        rw [skipped] at later
        rw [same] at ih shorter ⊢
        exact .separated (ih _ shorter later rfl)
      · obtain ⟨others, later, rfl⟩ := map_eq_ok.mp h
        exact .passed opener closer (ih _ (Nat.lt_succ_self _) later rfl)

theorem splits_of_pieces (h : pieces op cs = .ok parts) : Splits op .outside [] cs parts :=
  splits_of_piecesFrom h

/-! ## Parts -/

theorem Splits.ne_nil (h : Splits op quote nesting cs parts) : parts ≠ [] := by
  have consFirst_ne_nil (c : Char) (parts : List (List Char)) : consFirst c parts ≠ [] := by
    cases parts <;> exact List.cons_ne_nil _ _
  cases h <;> first | exact List.cons_ne_nil _ _ | exact consFirst_ne_nil _ _

theorem joinWith_consFirst (separator : List Char) (c : Char) (parts : List (List Char)) :
    joinWith separator (consFirst c parts) = c :: joinWith separator parts := by
  match parts with
  | [] => rfl
  | [_] => rfl
  | _ :: _ :: _ => rw [consFirst, joinWith_cons_cons, joinWith_cons_cons]; rfl

/-- The parts with the operator between them are the text. -/
theorem Splits.joinWith_eq (h : Splits op quote nesting cs parts) :
    joinWith op.symbol parts = cs := by
  induction h with
  | done => rfl
  | quoted _ _ ih => rw [joinWith_consFirst, ih]
  | opened _ _ _ ih => rw [joinWith_consFirst, ih]
  | closed _ _ _ _ ih => rw [joinWith_consFirst, ih]
  | separated later ih =>
    obtain ⟨part, others, rfl⟩ := List.exists_cons_of_ne_nil later.ne_nil
    rw [joinWith_cons_cons, List.nil_append, ih]
  | passed _ _ _ ih => rw [joinWith_consFirst, ih]

/-! ## Depth -/

theorem depthFrom_quoted (inside : quote ≠ .outside) (c : Char) (rest : List Char) :
    depthFrom quote (c :: rest) = depthFrom (quote.next c) rest := by
  cases quote with
  | outside => exact absurd rfl inside
  | inside => rw [depthFrom]; exact fun h => absurd h inside
  | escaped => rw [depthFrom]; exact fun h => absurd h inside

theorem depthFrom_quiet {cs : List Char} (h : ∀ c ∈ cs, isQuiet c = true) (rest : List Char) :
    depthFrom .outside (cs ++ rest) = depthFrom .outside rest := by
  have enclosed : Enclosed (fun _ => true) cs := .of_quiet fun c hc => ⟨h c hc, rfl⟩
  exact enclosed.depthFrom_eq rest

theorem isQuiet_symbol (op : Operator) : op.symbol.all isQuiet = true := by
  cases op <;> rfl

theorem ne_quote_of_bracket {c : Char}
    (h : Bracket.ofOpener? c ≠ none ∨ Bracket.ofCloser? c ≠ none) : c ≠ '"' := by
  rintro rfl
  rcases h with opener | closer
  · exact opener rfl
  · exact closer rfl

/-- An accepted text closes the brackets that are open, and no more. -/
theorem Splits.depthFrom_append (h : Splits op quote nesting cs parts) (tail : List Char) :
    depthFrom quote (cs ++ tail) = depthFrom .outside tail - nesting.length := by
  induction h with
  | done => simp
  | quoted inside _ ih => rw [List.cons_append, depthFrom_quoted inside, ih]
  | opened b opener _ ih =>
    rw [List.cons_append, depthFrom, opener, next_outside (ne_quote_of_bracket (.inl (by simp
      [opener]))), ih]
    simp only [Option.isSome_some, if_true, List.length_cons]
    omega
  | closed b opener closer _ ih =>
    rw [List.cons_append, depthFrom, opener, closer, next_outside (ne_quote_of_bracket (.inr (by
      simp [closer]))), ih]
    simp only [Option.isSome_none, Option.isSome_some, Bool.false_eq_true, if_false, if_true,
      List.length_cons]
    omega
  | separated _ ih =>
    rw [List.append_assoc, depthFrom_quiet (List.all_eq_true.mp (isQuiet_symbol _)), ih]
  | passed opener closer _ ih =>
    rw [List.cons_append, depthFrom, opener, closer, ih]
    simp

/-! ## Accepted texts -/

/-- **The parts of a text with the operator between them are the text.** -/
theorem joinWith_of_pieces (h : pieces op cs = .ok parts) : joinWith op.symbol parts = cs :=
  (splits_of_pieces h).joinWith_eq

/-- **In an accepted text as many brackets close as open.** -/
theorem openDepth_of_pieces (h : pieces op cs = .ok parts) : openDepth cs = 0 := by
  have closed := (splits_of_pieces h).depthFrom_append []
  rwa [List.append_nil] at closed

end CapabilityPipeline.Source
