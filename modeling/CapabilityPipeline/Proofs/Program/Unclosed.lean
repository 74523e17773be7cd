import CapabilityPipeline.Proofs.Program.FirstError
import CapabilityPipeline.Proofs.Source.Matching

/-!
# Brackets that do not close

A target or parameters whose bracket does not close are an error of the reader of steps. The text
of a step has been searched for operators before it is read, and a text in which that search
succeeds closes all its brackets. So this error is never reported for a step of a statement.

Results:

* `ParseError.isUnclosed`: the two errors in question.
* `Step.not_unclosed`: they do not arise for a text that the search for an operator accepts.
* `Program.not_unclosed`: they are never reported for a program.
* `matchingClose_agrees`: the search for a closing bracket against the search for an operator.
-/

namespace CapabilityPipeline

open Source Text

/-- The bracket of a target or of parameters does not close. -/
def ParseError.isUnclosed : ParseError → Bool
  | unclosedTarget _ | unclosedParams _ => true
  | _ => false

/-! ## Parts of a step -/

variable {op : Operator} {cs rest : List Char} {e : ParseError}

/-- A header is accepted. -/
theorem HeaderText.accepts {domain action : String} (h : HeaderText domain action cs)
    (op : Operator) : Accepts op cs := by
  have enclosed : Enclosed op.avoids cs := h.enclosed.mono fun _ ok => avoids_of_isOperand op ok
  exact accepts_iff_pieces.mpr ⟨_, enclosed.pieces_eq⟩

theorem parseTarget_not_unclosed {inner : List Char} (h : parseTarget inner = .error e) :
    e.isUnclosed = false := by
  unfold parseTarget at h
  split at h
  · cases h
  · dsimp only at h
    split at h <;> cases h
    rfl
  · split at h <;> cases h

theorem parseParams_not_unclosed {route : String} {text : List Char}
    (h : parseParams route text = .error e) : e.isUnclosed = false := by
  unfold parseParams at h
  split at h <;> cases h <;> rfl

/-- The target of an accepted text is not found unclosed. -/
theorem targetAtFront_not_unclosed {route : String} (accepted : Accepts op cs)
    (h : targetAtFront route cs = .error e) : e.isUnclosed = false := by
  unfold targetAtFront at h
  split at h
  · next tail =>
    obtain ⟨bracketed, rest, found, -, -⟩ := accepted.splitClose_eq (b := .round)
    have found : splitClose ('(' :: tail) = some (bracketed, rest) := found
    rw [found] at h
    exact parseTarget_not_unclosed (bind_pure_eq_error.mp h)
  · cases h

/-- Behind the target of an accepted text the rest is accepted. -/
theorem accepts_of_targetAtFront {route : String} {target : Option String}
    (accepted : Accepts op cs) (h : targetAtFront route cs = .ok (target, rest)) :
    Accepts op rest := by
  unfold targetAtFront at h
  split at h
  · next tail =>
    obtain ⟨bracketed, behind, found, -, later⟩ := accepted.splitClose_eq (b := .round)
    have found : splitClose ('(' :: tail) = some (bracketed, behind) := found
    rw [found] at h
    obtain ⟨_, _, returned⟩ := bind_eq_ok.mp h
    cases returned
    exact later.trimStart
  · cases h
    exact accepted

/-- The parameters of an accepted text are not found unclosed. -/
theorem paramsAtFront_not_unclosed {route : String} (accepted : Accepts op cs)
    (h : paramsAtFront route cs = .error e) : e.isUnclosed = false := by
  unfold paramsAtFront at h
  split at h
  · next tail =>
    obtain ⟨bracketed, rest, found, -, -⟩ := accepted.splitClose_eq (b := .curly)
    have found : splitClose ('\x7b' :: tail) = some (bracketed, rest) := found
    rw [found] at h
    exact parseParams_not_unclosed (bind_pure_eq_error.mp h)
  · cases h

/-- **A text that the search for an operator accepts is not found unclosed.** -/
theorem Step.not_unclosed (accepted : Accepts op cs) (h : Step.parse cs = .error e) :
    e.isUnclosed = false := by
  unfold Step.parse at h
  dsimp only at h
  split at h
  · cases h
    rfl
  · next domain action afterHeader header =>
    obtain ⟨text, isHeader, whole⟩ := headerAtFront_eq_some_iff.mp header
    have later : Accepts op (trimStart afterHeader) :=
      ((isHeader.accepts op).of_append (whole ▸ accepted.trim)).trimStart
    rcases bind_eq_error.mp h with failed | ⟨⟨target, behind⟩, hasTarget, h⟩
    · exact targetAtFront_not_unclosed later failed
    have last := accepts_of_targetAtFront later hasTarget
    rcases bind_eq_error.mp h with failed | ⟨⟨params, left⟩, _, h⟩
    · exact paramsAtFront_not_unclosed last failed
    · dsimp only at h
      split at h <;> cases h
      rfl

example : Step.parse "[m:find](\"b)".toList = .error (.unclosedTarget "m:find") := by
  decide

/-! ## Groups, pipelines and statements -/

theorem accepts_of_occurs {found : Bool}
    (h : (occurs op cs).mapError ParseError.scan = .ok found) : Accepts op cs := by
  obtain ⟨parts, split, -⟩ := map_eq_ok.mp (mapError_eq_ok.mp h)
  exact accepts_iff_pieces.mpr ⟨parts, split⟩

theorem scan_not_unclosed {α : Type} {x : Except ScanError α}
    (h : x.mapError ParseError.scan = .error e) : e.isUnclosed = false := by
  obtain ⟨_, _, rfl⟩ := mapError_eq_error.mp h
  rfl

/-- What a text is split into is accepted, and so not found unclosed. -/
theorem not_unclosed_of_mem_splitTopLevel {part : List Char} {parts : List (List Char)}
    (split : splitTopLevel op cs = .ok parts) (mem : part ∈ parts)
    (h : Step.parse part = .error e) : e.isUnclosed = false :=
  Step.not_unclosed ⟨[], positions_of_mem_splitTopLevel split mem⟩ h

theorem parseBranches_not_unclosed (h : parseBranches op cs = .error e) :
    e.isUnclosed = false := by
  rcases bind_eq_error.mp h with failed | ⟨parts, split, h⟩
  · exact scan_not_unclosed failed
  obtain ⟨part, mem, h⟩ := exists_of_mapM_eq_error h
  split at h
  · cases h
    rfl
  · cases parsed : Step.parse part with
    | ok step =>
      rw [parsed] at h
      cases h
    | error e' =>
      rw [parsed] at h
      cases h
      exact not_unclosed_of_mem_splitTopLevel (mapError_eq_ok.mp split) mem parsed

theorem Group.not_unclosed (h : Group.parse cs = .error e) : e.isUnclosed = false := by
  unfold Group.parse at h
  rcases bind_eq_error.mp h with failed | ⟨parallel, accepted, h⟩
  · exact scan_not_unclosed failed
  rcases bind_eq_error.mp h with failed | ⟨fallback, _, h⟩
  · exact scan_not_unclosed failed
  split at h
  · cases h
    rfl
  · exact parseBranches_not_unclosed (bind_pure_eq_error.mp h)
  · exact parseBranches_not_unclosed (bind_pure_eq_error.mp h)
  · exact Step.not_unclosed (accepts_of_occurs accepted) (bind_pure_eq_error.mp h)

theorem parseSegments_not_unclosed {position : Nat} {segments : List (List Char)}
    (h : parseSegments position segments = .error e) : e.isUnclosed = false := by
  induction segments generalizing position with
  | nil => cases h
  | cons segment rest ih =>
    rw [parseSegments] at h
    split at h
    · cases h
      rfl
    rcases bind_eq_error.mp h with failed | ⟨group, _, h⟩
    · exact Group.not_unclosed failed
    exact ih (bind_pure_eq_error.mp h)

theorem Pipeline.not_unclosed (h : Pipeline.parse cs = .error e) : e.isUnclosed = false := by
  rcases bind_eq_error.mp h with failed | ⟨segments, _, h⟩
  · exact scan_not_unclosed failed
  exact parseSegments_not_unclosed (bind_pure_eq_error.mp h)

theorem splitAssignment_not_unclosed (h : splitAssignment cs = .error e) :
    e.isUnclosed = false := by
  unfold splitAssignment at h
  split at h
  · split at h
    · cases h
    · dsimp only at h
      split at h
      · cases h
        rfl
      · split at h <;> cases h
        rfl
  · cases h

theorem checkSingle_not_unclosed {name : String} {ops : List Operator}
    (h : checkSingle name cs ops = .error e) : e.isUnclosed = false := by
  induction ops with
  | nil => cases h
  | cons op rest ih =>
    rcases bind_eq_error.mp h with failed | ⟨found, _, h⟩
    · exact scan_not_unclosed failed
    split at h
    · cases h
      rfl
    · exact ih h

theorem checkReferences_not_unclosed {known : NameSet} {step : Step}
    (h : checkReferences known step = .error e) : e.isUnclosed = false := by
  unfold checkReferences at h
  split at h <;> cases h
  rfl

theorem parseStatement_not_unclosed {known : NameSet} (h : parseStatement known cs = .error e) :
    e.isUnclosed = false := by
  unfold parseStatement at h
  rcases bind_eq_error.mp h with failed | ⟨assignment, _, h⟩
  · exact splitAssignment_not_unclosed failed
  cases assignment with
  | some assignment =>
    obtain ⟨name, value⟩ := assignment
    dsimp only at h
    split at h
    · cases h
      rfl
    rcases bind_eq_error.mp h with failed | ⟨_, single, h⟩
    · exact checkSingle_not_unclosed failed
    obtain ⟨parts, split⟩ := pieces_of_checkSingle single .sequence (by decide)
    rcases bind_eq_error.mp h with failed | ⟨step, _, h⟩
    · exact Step.not_unclosed (accepts_iff_pieces.mpr ⟨parts, split⟩) failed
    exact checkReferences_not_unclosed (bind_pure_eq_error.mp h)
  | none =>
    dsimp only at h
    rcases bind_eq_error.mp h with failed | ⟨pipeline, _, h⟩
    · exact Pipeline.not_unclosed failed
    obtain ⟨step, _, failed⟩ := exists_of_forM_eq_error (bind_pure_eq_error.mp h)
    exact checkReferences_not_unclosed failed

/-- **No program is refused for a bracket that a step leaves open.** -/
theorem Program.not_unclosed {code : String} {error : SyntaxError}
    (h : Program.parse code = .error error) : error.cause.isUnclosed = false := by
  unfold Program.parse at h
  split at h
  · cases h
    rfl
  · obtain ⟨_, bad, _, _, _, _, _, cause⟩ := parseStatements_error h
    exact parseStatement_not_unclosed cause

/-- **The search for a closing bracket agrees with the search for an operator.** In the octets of
a text it returns what it returns in its characters. From an opening bracket on it returns an
offset exactly if that is the least one up to which the text is accepted. If the text is accepted
as a whole, it returns an offset, and the text is accepted up to it and behind it. So no step that
a text is split into is found unclosed. -/
theorem matchingClose_agrees (op : Operator) :
    (∀ cs, octetClose (octetsOf cs) = matchingClose cs) ∧
      (∀ (b : Bracket) tail k, matchingClose (b.opener :: tail) = some k ↔
        IsLeast {offset | AcceptsUpTo op (b.opener :: tail) offset} k) ∧
      (∀ (b : Bracket) tail, Accepts op (b.opener :: tail) →
        ∃ k front back, matchingClose (b.opener :: tail) = some k ∧
          cut (k + 1) (b.opener :: tail) = some (front, back) ∧
          Accepts op front ∧ Accepts op back) ∧
      ∀ cs parts, splitTopLevel op cs = .ok parts → ∀ part ∈ parts, ∀ e,
        Step.parse part = .error e → e.isUnclosed = false := by
  refine ⟨octetClose_eq, matchingClose_isLeast op, fun b tail accepted => ?_, ?_⟩
  · obtain ⟨front, back, found, first, later⟩ := accepted.splitClose_eq
    obtain ⟨k, count⟩ := Nat.exists_eq_add_one.mpr (byteCount_pos (prefix_of_splitClose found).2.1)
    exact ⟨k, front, back, matchingClose_eq_some_iff.mpr ⟨front, back, found, count⟩,
      cut_eq_some_iff.mpr ⟨(prefix_of_splitClose found).1, count⟩, first, later⟩
  · intro cs parts split part mem e
    exact not_unclosed_of_mem_splitTopLevel split mem

end CapabilityPipeline
