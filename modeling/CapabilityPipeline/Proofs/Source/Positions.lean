import CapabilityPipeline.Proofs.Source.Octets

/-!
# Texts cut at operators

The offsets that the search for an operator returns lie between characters. The texts between
them are the parts of the split text, none of which holds the operator outside literals and
brackets, with or without the blanks at its ends.

Results:

* `cut`, `slice`, `slices`: texts between byte offsets.
* `slices_operatorOffsets`: the texts between the operators of joined parts are the parts.
* `Undivided`, `topLevelPositions_eq_nil_iff`: an operator does not occur at top level.
* `undivided_of_piecesFrom`: the operator does not occur in the parts.
* `topLevelPositions_cuts`: what the offsets of an operator are.
-/

namespace CapabilityPipeline.Source

open Text

/-! ## Slices -/

/-- The texts before and behind a byte offset, which has to lie between characters. -/
def cut : (offset : Nat) → List Char → Option (List Char × List Char)
  | 0, cs => some ([], cs)
  | _ + 1, [] => none
  | offset + 1, c :: rest =>
    if c.utf8Size ≤ offset + 1 then
      (cut (offset + 1 - c.utf8Size) rest).map (beforeFirst [c])
    else none

/-- The text from one byte offset to another. -/
def slice (start stop : Nat) (cs : List Char) : Option (List Char) := do
  let (front, _) ← cut stop cs
  let (_, part) ← cut start front
  return part

/-- The texts between operators at the given offsets, the first text starting at an offset. -/
def slices (op : Operator) (cs : List Char) : (start : Nat) → List Nat → Option (List (List Char))
  | start, [] => do
    let last ← slice start (byteCount cs) cs
    return [last]
  | start, offset :: later => do
    let part ← slice start offset cs
    let others ← slices op cs (offset + byteCount op.symbol) later
    return part :: others

theorem cut_zero (cs : List Char) : cut 0 cs = some ([], cs) := by
  cases cs <;> rfl

theorem cut_append (front back : List Char) :
    cut (byteCount front) (front ++ back) = some (front, back) := by
  induction front with
  | nil => exact cut_zero back
  | cons c front ih =>
    have positive := c.utf8Size_pos
    obtain ⟨offset, same⟩ : ∃ offset, byteCount (c :: front) = offset + 1 :=
      ⟨c.utf8Size + byteCount front - 1, by rw [byteCount_cons]; omega⟩
    rw [byteCount_cons] at same
    have within : offset + 1 - c.utf8Size = byteCount front := by omega
    rw [List.cons_append, byteCount_cons, same, cut, if_pos (by omega), within, ih]
    rfl

theorem eq_of_cut {offset : Nat} {cs front back : List Char}
    (h : cut offset cs = some (front, back)) : cs = front ++ back ∧ byteCount front = offset := by
  induction cs generalizing offset front with
  | nil =>
    cases offset with
    | zero =>
      cases h
      exact ⟨rfl, rfl⟩
    | succ offset => cases h
  | cons c rest ih =>
    cases offset with
    | zero =>
      cases h
      exact ⟨rfl, rfl⟩
    | succ offset =>
      rw [cut] at h
      split at h
      · next fits =>
        obtain ⟨⟨more, behind⟩, found, same⟩ := Option.map_eq_some_iff.mp h
        cases same
        obtain ⟨rfl, count⟩ := ih found
        refine ⟨rfl, ?_⟩
        change c.utf8Size + byteCount more = offset + 1
        omega
      · cases h

theorem cut_eq_some_iff {offset : Nat} {cs front back : List Char} :
    cut offset cs = some (front, back) ↔ cs = front ++ back ∧ byteCount front = offset := by
  constructor
  · exact eq_of_cut
  · rintro ⟨rfl, rfl⟩
    exact cut_append front back

theorem slice_append (before part behind : List Char) :
    slice (byteCount before) (byteCount before + byteCount part) (before ++ (part ++ behind)) =
      some part := by
  rw [slice, ← byteCount_append, ← List.append_assoc, cut_append]
  dsimp only [Option.bind_eq_bind, Option.bind_some]
  rw [cut_append]
  rfl

/-- **The texts between the operators of joined parts are the parts.** -/
theorem slices_operatorOffsets (op : Operator) (front : List Char) {parts : List (List Char)}
    (some : parts ≠ []) :
    slices op (front ++ joinWith op.symbol parts) (byteCount front)
      (operatorOffsets op (byteCount front) parts) = .some parts := by
  induction parts generalizing front with
  | nil => exact absurd rfl some
  | cons part others ih =>
    cases others with
    | nil =>
      have last := slice_append front part []
      rw [List.append_nil] at last
      rw [joinWith_singleton, operatorOffsets, slices, byteCount_append, last]
      rfl
    | cons next more =>
      have later := ih (front ++ part ++ op.symbol) (List.cons_ne_nil _ _)
      have first := slice_append front part (op.symbol ++ joinWith op.symbol (next :: more))
      rw [byteCount_append, byteCount_append] at later
      rw [operatorOffsets_cons _ _ _ (List.cons_ne_nil _ _), slices, joinWith_cons_cons]
      simp only [List.append_assoc] at later first ⊢
      rw [first, later]
      rfl

/-! ## Undivided texts -/

/-- From a level on literals end and brackets match, and at top level there is no operator. -/
structure Undivided (op : Operator) (l : Level) (cs : List Char) : Prop where
  closes : l.after cs = some .top
  single : ∀ front back, cs = front ++ (op.symbol ++ back) → l.after front ≠ some .top

variable {op : Operator} {l m : Level} {c : Char} {rest : List Char}

theorem symbol_ne_nil (op : Operator) : op.symbol ≠ [] := by
  cases op <;> exact List.cons_ne_nil _ _

theorem Undivided.nil (op : Operator) : Undivided op .top [] := by
  refine ⟨rfl, ?_⟩
  intro front back same
  have parts := List.append_eq_nil_iff.mp same.symm
  exact absurd (List.append_eq_nil_iff.mp parts.2).1 (symbol_ne_nil op)

theorem Undivided.cons (h : Undivided op m rest) (stands : l.next c = some m)
    (apart : l = .top → op.symbol.isPrefixOf (c :: rest) = false) :
    Undivided op l (c :: rest) := by
  refine ⟨?_, ?_⟩
  · rw [Level.after_cons, stands, Option.bind_some, h.closes]
  · intro front back same
    cases front with
    | nil =>
      intro top
      cases top
      have isFront : op.symbol.isPrefixOf (c :: rest) = true :=
        List.isPrefixOf_iff_prefix.mpr ⟨back, same.symm⟩
      rw [apart rfl] at isFront
      cases isFront
    | cons d front =>
      cases same
      rw [Level.after_cons, stands, Option.bind_some]
      exact h.single front back rfl

theorem Undivided.tail (h : Undivided op l (c :: rest)) :
    ∃ m, l.next c = some m ∧ Undivided op m rest := by
  have closes := h.closes
  rw [Level.after_cons] at closes
  obtain ⟨m, stands, closes⟩ := Option.bind_eq_some_iff.mp closes
  refine ⟨m, stands, closes, ?_⟩
  intro front back same
  have later := h.single (c :: front) back (by rw [same, List.cons_append])
  rwa [Level.after_cons, stands, Option.bind_some] at later

/-- An undivided text is one piece. -/
theorem Undivided.piecesFrom_eq {cs : List Char} (h : Undivided op l cs) (offset : Nat) :
    piecesFrom op (l.scan offset) cs = .ok [cs] := by
  induction l, cs using operatorInduction op generalizing offset with
  | nil l =>
    rw [piecesFrom_nil, Level.ending_eq_ok_iff.mpr (Option.some.inj h.closes)]
    rfl
  | operator rest _ => exact absurd rfl (h.single [] rest rfl)
  | other l c rest apart ih =>
    obtain ⟨m, stands, later⟩ := h.tail
    rw [piecesFrom_cons apart, stands]
    dsimp only
    rw [ih m stands later]
    rfl

theorem prefix_joinWith (separator part : List Char) (others : List (List Char)) :
    part <+: joinWith separator (part :: others) := by
  cases others with
  | nil => rw [joinWith_singleton]
  | cons next more =>
    rw [joinWith_cons_cons, List.append_assoc]
    exact List.prefix_append _ _

/-- **The parts of a split text are undivided.** -/
theorem undivided_of_piecesFrom {offset : Nat} {cs first : List Char}
    {others : List (List Char)} (h : piecesFrom op (l.scan offset) cs = .ok (first :: others)) :
    Undivided op l first ∧ ∀ part ∈ others, Undivided op .top part := by
  induction l, cs using operatorInduction op generalizing offset first others with
  | nil l =>
    rw [piecesFrom_nil] at h
    obtain ⟨_, ended, same⟩ := map_eq_ok.mp h
    obtain rfl := Level.ending_eq_ok_iff.mp ended
    cases same
    exact ⟨.nil op, fun _ none => absurd none List.not_mem_nil⟩
  | operator rest ih =>
    rw [piecesFrom_atOperator] at h
    obtain ⟨parts, found, same⟩ := map_eq_ok.mp h
    cases same
    obtain ⟨next, more, rfl⟩ := List.exists_cons_of_ne_nil (piecesFrom_ne_nil found)
    exact ⟨.nil op, List.forall_mem_cons.mpr (ih found)⟩
  | other l c rest apart ih =>
    rw [piecesFrom_cons apart] at h
    cases stands : l.next c with
    | none =>
      rw [stands] at h
      cases h
    | some m =>
      rw [stands] at h
      obtain ⟨parts, found, same⟩ := map_eq_ok.mp h
      obtain ⟨next, more, rfl⟩ := List.exists_cons_of_ne_nil (piecesFrom_ne_nil found)
      cases same
      obtain ⟨undivided, later⟩ := ih m stands found
      refine ⟨undivided.cons stands fun top => ?_, later⟩
      -- the first part is the front of the text, so an operator in front of it is one of the text
      rw [Bool.eq_false_iff]
      intro isFront
      have front : next <+: rest := by
        rw [← (splits_of_piecesFrom found).joinWith_eq]
        exact prefix_joinWith op.symbol next _
      have inText : op.symbol <+: c :: rest :=
        (List.isPrefixOf_iff_prefix.mp isFront).trans (List.cons_prefix_cons.mpr ⟨rfl, front⟩)
      rw [← List.isPrefixOf_iff_prefix, apart top] at inText
      cases inText

/-! ## Trimmed texts -/

/-- No blank closes a literal or a bracket. -/
theorem Level.eq_top_of_blanks {cs : List Char} (blanks : Blanks cs)
    (h : l.after cs = some .top) : l = .top := by
  induction cs generalizing l with
  | nil => exact Option.some.inj h
  | cons c rest ih =>
    obtain ⟨blank, later⟩ := List.forall_mem_cons.mp blanks
    rw [after_cons] at h
    obtain ⟨m, stands, closes⟩ := Option.bind_eq_some_iff.mp h
    obtain rfl := ih later closes
    have quiet := isQuiet_of_isBlank blank
    obtain ⟨-, -, quote⟩ := isQuiet_iff.mp quiet
    obtain ⟨place, nesting⟩ := l
    cases place with
    | outside =>
      rw [next_quiet rfl quiet] at stands
      exact Option.some.inj stands
    | inside =>
      have backslash : c ≠ '\\' := by
        rintro rfl
        cases blank
      rw [next_quoted (fun outside => by cases outside), next_inside quote backslash] at stands
      cases stands
    | escaped => cases stands

theorem Level.after_blanks {blanks : List Char} (h : Blanks blanks) (cs : List Char) :
    Level.top.after (blanks ++ cs) = Level.top.after cs := by
  rw [after_append, after_quiet rfl fun c hc => isQuiet_of_isBlank (h c hc), Option.bind_some]

/-- An accepted text is accepted without the blanks at its start. -/
theorem Accepts.trimStart {cs : List Char} (h : Accepts op cs) : Accepts op (trimStart cs) := by
  obtain ⟨before, blanks, same⟩ := eq_blanks_trimStart cs
  rw [accepts_iff] at h ⊢
  rwa [same, Level.after_blanks blanks] at h

/-- An accepted text is accepted without the blanks at its ends. -/
theorem Accepts.trim {cs : List Char} (h : Accepts op cs) : Accepts op (trim cs) := by
  obtain ⟨behind, blanks, same⟩ := eq_trimEnd_blanks (Text.trimStart cs)
  have closes := accepts_iff.mp h.trimStart
  rw [same, Level.after_append] at closes
  obtain ⟨m, stands, closes⟩ := Option.bind_eq_some_iff.mp closes
  rw [accepts_iff, Text.trim, stands, Level.eq_top_of_blanks blanks closes]

/-- A text stays undivided without the blanks at its ends. -/
theorem Undivided.trim {cs : List Char} (h : Undivided op .top cs) :
    Undivided op .top (trim cs) := by
  refine ⟨accepts_iff.mp (accepts_iff.mpr h.closes : Accepts op cs).trim, ?_⟩
  obtain ⟨before, behind, hb, -, same⟩ := eq_blanks_trim cs
  intro front back inside
  rw [← Level.after_blanks hb]
  apply h.single (before ++ front) (back ++ behind)
  rw [same, inside]
  simp only [List.append_assoc]

/-! ## Offsets of operators -/

theorem Undivided.positions_eq {cs : List Char} (h : Undivided op .top cs) :
    topLevelPositions op cs = .ok [] := by
  have single : pieces op cs = .ok [cs] := h.piecesFrom_eq 0
  rw [topLevelPositions, single]
  rfl

/-- **No offset is returned where no operator is at top level.** -/
theorem topLevelPositions_eq_nil_iff {cs : List Char} :
    topLevelPositions op cs = .ok [] ↔ Undivided op .top cs := by
  constructor
  · intro h
    obtain ⟨parts, found, none⟩ := map_eq_ok.mp h
    have whole := joinWith_of_pieces found
    match parts, piecesFrom_ne_nil (l := .top) found with
    | [part], _ =>
      rw [← whole, joinWith_singleton]
      exact (undivided_of_piecesFrom (l := .top) found).1
    | _ :: _ :: _, _ => cases none
  · exact Undivided.positions_eq

/-- **The operator is not at top level in what a text is split into.** -/
theorem positions_of_mem_splitTopLevel {cs part : List Char} {parts : List (List Char)}
    (h : splitTopLevel op cs = .ok parts) (mem : part ∈ parts) :
    topLevelPositions op part = .ok [] := by
  obtain ⟨pieces, found, rfl⟩ := map_eq_ok.mp h
  obtain ⟨piece, isPiece, rfl⟩ := List.mem_map.mp mem
  obtain ⟨first, others, rfl⟩ := List.exists_cons_of_ne_nil (splits_of_pieces found).ne_nil
  obtain ⟨undivided, later⟩ := undivided_of_piecesFrom (l := .top) found
  exact (List.forall_mem_cons.mpr ⟨undivided, later⟩ piece isPiece).trim.positions_eq

/-- **Texts are cut exactly at top-level operators.** The search in the octets of a text returns
what the search in its characters returns. Whether it succeeds has nothing to do with the
operator, nor has the error if it fails. If it succeeds, as many brackets close as open, the
offsets lie between characters, the texts between them are the text with operators between, and
they are what the text is split into. Without the blanks at its ends each of them is accepted,
and the operator is not in it. -/
theorem topLevelPositions_cuts (op : Operator) (cs : List Char) :
    octetOffsets op (octetsOf cs) = topLevelPositions op cs ∧
      (∀ other, (Accepts op cs ↔ Accepts other cs) ∧
        ∀ e, topLevelPositions op cs = .error e ↔ topLevelPositions other cs = .error e) ∧
      ∀ offsets, topLevelPositions op cs = .ok offsets →
        openDepth cs = 0 ∧
          ∃ parts, slices op cs 0 offsets = some parts ∧ joinWith op.symbol parts = cs ∧
            splitTopLevel op cs = .ok (parts.map Text.trim) ∧
            ∀ part ∈ parts.map Text.trim, topLevelPositions op part = .ok [] := by
  refine ⟨octetOffsets_eq op cs, fun other => ⟨accepts_iff.trans accepts_iff.symm, ?_⟩, ?_⟩
  · intro e
    exact topLevelPositions_eq_error_iff.trans topLevelPositions_eq_error_iff.symm
  intro offsets h
  obtain ⟨parts, found, rfl⟩ := map_eq_ok.mp h
  have whole := joinWith_of_pieces found
  have cutAgain := slices_operatorOffsets op [] (splits_of_pieces found).ne_nil
  rw [List.nil_append, whole] at cutAgain
  have split : splitTopLevel op cs = .ok (parts.map Text.trim) := by
    rw [splitTopLevel, found]
    rfl
  exact ⟨openDepth_of_pieces found, parts, cutAgain, whole, split,
    fun _ mem => positions_of_mem_splitTopLevel split mem⟩

example : topLevelPositions .sequence ">>> & \"é>>\" >>".toList = .ok [0, 13] := by decide

end CapabilityPipeline.Source
