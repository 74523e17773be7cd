import CapabilityPipeline.Proofs.Program.StepGrammar

/-!
# The level of a scanner

The scanner that looks for operators and the one that looks for a closing bracket keep the same
account of literals and brackets. What one character does to the account is said once, and the
scanners are described by it. An operator changes nothing of the account, so which operator a
scanner looks for has no part in what it accepts.

Results:

* `Level.next`, `Level.after`: the account behind one character, and behind a text.
* `piecesFrom_nil`, `piecesFrom_atOperator`, `piecesFrom_cons`: one step of the search for an
  operator.
* `operatorInduction`: texts by the operators and other characters that they begin with.
* `map_piecesFrom`: what is accepted and what is reported is the same for all operators.
* `accepts_iff`: a text is accepted when the account is closed behind it.
* `splitCloseFrom_cons`: one step of the search for a closing bracket.
-/

namespace CapabilityPipeline.Source

open Text

/-! ## The account -/

/-- What a scanner knows of the literals and brackets before it. -/
structure Level where
  quote : Quote
  /-- Open brackets, innermost first. -/
  nesting : List Bracket
  deriving DecidableEq, Repr

namespace Level

/-- Outside all literals and brackets. -/
def top : Level := ⟨.outside, []⟩

/-- The account behind one more character. There is none behind a closing bracket that does not
match the innermost open one. -/
def next (l : Level) (c : Char) : Option Level :=
  if l.quote ≠ .outside then some { l with quote := l.quote.next c }
  else match Bracket.ofOpener? c, Bracket.ofCloser? c with
    | some b, _ => some { l with nesting := b :: l.nesting }
    | none, some b =>
      match l.nesting with
      | [] => none
      | innermost :: outer => if innermost = b then some { l with nesting := outer } else none
    | none, none => some { l with quote := l.quote.next c }

/-- The account behind a text. -/
def after (l : Level) (cs : List Char) : Option Level :=
  cs.foldlM next l

/-- A text may end here if no literal and no bracket is open. -/
def ending (l : Level) : Except ScanError Unit :=
  if l.quote ≠ .outside then .error .unterminatedString
  else match l.nesting with
    | b :: _ => .error (.missingClose b)
    | [] => .ok ()

/-- What is wrong with the brackets and literals of a text from a byte offset on. -/
def check : Level → (offset : Nat) → List Char → Except ScanError Unit
  | l, _, [] => l.ending
  | l, offset, c :: rest =>
    match l.next c with
    | none => .error (.unbalanced c offset)
    | some l => check l (offset + c.utf8Size) rest

/-- The scanner for operators at this level. -/
def scan (l : Level) (offset : Nat) : SplitScan := ⟨offset, l.quote, l.nesting, 0⟩

variable {l m : Level} {c : Char} {cs : List Char}

@[simp] theorem after_nil (l : Level) : l.after [] = some l := rfl

theorem after_cons (l : Level) (c : Char) (cs : List Char) :
    l.after (c :: cs) = (l.next c).bind fun m => m.after cs :=
  List.foldlM_cons

theorem after_append (l : Level) (a b : List Char) :
    l.after (a ++ b) = (l.after a).bind fun m => m.after b :=
  List.foldlM_append

theorem next_quoted (inside : l.quote ≠ .outside) (c : Char) :
    l.next c = some ⟨l.quote.next c, l.nesting⟩ :=
  if_pos inside

theorem next_quiet (outside : l.quote = .outside) (h : isQuiet c = true) : l.next c = some l := by
  obtain ⟨opener, closer, quote⟩ := isQuiet_iff.mp h
  obtain ⟨_, nesting⟩ := l
  subst outside
  simp [next, opener, closer, next_outside quote]

theorem next_opener (outside : l.quote = .outside) (b : Bracket) :
    l.next b.opener = some ⟨.outside, b :: l.nesting⟩ := by
  simp [next, outside, b.ofOpener?_opener]

theorem ending_eq_ok_iff : l.ending = .ok () ↔ l = .top := by
  obtain ⟨quote, nesting⟩ := l
  cases quote <;> cases nesting <;> simp [ending, top]

/-- The account is closed behind what is not wrong. -/
theorem check_eq_ok_iff {offset : Nat} : l.check offset cs = .ok () ↔ l.after cs = some .top := by
  induction cs generalizing l offset with
  | nil =>
    rw [check, ending_eq_ok_iff, after_nil, Option.some.injEq]
  | cons c rest ih =>
    rw [check, after_cons]
    cases l.next c with
    | none => simp
    | some m => exact ih

/-- Open brackets that all close leave nothing open. -/
theorem next_eq_top_or (inside : l.nesting ≠ []) (h : l.next c = some m) :
    m = .top ∨ m.nesting ≠ [] := by
  by_cases quoted : l.quote ≠ .outside
  · rw [next_quoted quoted] at h
    cases h
    exact .inr inside
  · rw [next, if_neg quoted] at h
    split at h
    · cases h
      exact .inr (List.cons_ne_nil _ _)
    · split at h
      · cases h
      · next innermost outer _ =>
        split at h
        · cases h
          cases outer with
          | nil => exact .inl (by rw [Decidable.not_not.mp quoted]; rfl)
          | cons _ _ => exact .inr (List.cons_ne_nil _ _)
        · cases h
    · cases h
      exact .inr inside

/-- Nothing changes in a text of other characters. -/
theorem after_quiet (outside : l.quote = .outside) (h : ∀ c ∈ cs, isQuiet c = true) :
    l.after cs = some l := by
  induction cs with
  | nil => rfl
  | cons c rest ih =>
    obtain ⟨quiet, later⟩ := List.forall_mem_cons.mp h
    rw [after_cons, next_quiet outside quiet, Option.bind_some, ih later]

end Level

/-! ## The search for an operator -/

variable {op : Operator} {l : Level} {offset : Nat} {c : Char} {rest : List Char}

theorem piecesFrom_nil (op : Operator) (l : Level) (offset : Nat) :
    piecesFrom op (l.scan offset) [] = l.ending.map fun _ => [[]] := by
  obtain ⟨quote, nesting⟩ := l
  rw [piecesFrom, Level.ending, Level.scan]
  cases quote <;> cases nesting <;> rfl

/-- An operator at top level. -/
theorem piecesFrom_atOperator (op : Operator) (offset : Nat) (rest : List Char) :
    piecesFrom op (Level.top.scan offset) (op.symbol ++ rest) =
      (piecesFrom op (Level.top.scan (offset + byteCount op.symbol)) rest).map ([] :: ·) :=
  piecesFrom_symbol op offset rest

/-- A character at which no operator stands at top level. -/
theorem piecesFrom_cons (apart : l = .top → op.symbol.isPrefixOf (c :: rest) = false) :
    piecesFrom op (l.scan offset) (c :: rest) =
      match l.next c with
      | none => .error (.unbalanced c offset)
      | some m => (piecesFrom op (m.scan (offset + c.utf8Size)) rest).map (consFirst c) := by
  obtain ⟨quote, nesting⟩ := l
  by_cases inside : quote ≠ .outside
  · rw [Level.next_quoted inside, piecesFrom]
    simp [Level.scan, inside]
  · obtain rfl : quote = .outside := Decidable.not_not.mp inside
    rw [piecesFrom, Level.next, Level.scan]
    simp only [gt_iff_lt, Nat.lt_irrefl, if_false, ne_eq, not_true_eq_false]
    cases opener : Bracket.ofOpener? c with
    | some b => rfl
    | none =>
      cases closer : Bracket.ofCloser? c with
      | some b =>
        cases nesting with
        | nil => rfl
        | cons innermost outer =>
          dsimp only
          split <;> rfl
      | none =>
        have passed : ¬(nesting = [] ∧ op.symbol.isPrefixOf (c :: rest) = true) := by
          rintro ⟨rfl, isFront⟩
          rw [apart rfl] at isFront
          cases isFront
        dsimp only
        rw [if_neg passed]
        rfl

/-- A text is empty, or begins with an operator at top level, or with another character. -/
theorem operatorInduction (op : Operator) {motive : Level → List Char → Prop}
    (nil : ∀ l, motive l [])
    (operator : ∀ rest, motive .top rest → motive .top (op.symbol ++ rest))
    (other : ∀ l c rest, (l = .top → op.symbol.isPrefixOf (c :: rest) = false) →
      (∀ m, l.next c = some m → motive m rest) → motive l (c :: rest))
    (l : Level) (cs : List Char) : motive l cs := by
  -- An operator is passed over as a whole, so the rest is not always one character shorter.
  induction length : cs.length using Nat.strongRecOn generalizing l cs with
  | ind n ih =>
  subst length
  cases cs with
  | nil => exact nil l
  | cons c rest =>
    by_cases atOperator : l = .top ∧ op.symbol.isPrefixOf (c :: rest) = true
    · obtain ⟨rfl, isFront⟩ := atOperator
      obtain ⟨tail, same⟩ := List.isPrefixOf_iff_prefix.mp isFront
      rw [← same]
      refine operator tail (ih _ ?_ _ _ rfl)
      rw [← same, List.length_append]
      have positive : 0 < op.symbol.length := by cases op <;> decide
      omega
    · refine other l c rest (fun top => ?_) fun m _ => ih _ (Nat.lt_succ_self _) _ _ rfl
      rw [Bool.eq_false_iff]
      exact fun isFront => atOperator ⟨top, isFront⟩

/-! ## What is accepted -/

/-- An operator is nothing to check. -/
theorem Level.check_symbol (op : Operator) (offset : Nat) (rest : List Char) :
    Level.top.check offset (op.symbol ++ rest) =
      Level.top.check (offset + byteCount op.symbol) rest := by
  have passed (c : Char) (h : isQuiet c = true) (offset : Nat) (rest : List Char) :
      Level.top.check offset (c :: rest) = Level.top.check (offset + c.utf8Size) rest := by
    rw [check, next_quiet rfl h]
  cases op with
  | sequence => exact (passed '>' rfl ..).trans (passed '>' rfl ..)
  | parallel => exact passed '&' rfl ..
  | fallback => exact (passed '?' rfl ..).trans (passed '?' rfl ..)

/-- **What is wrong with a text is the same for every operator.** -/
theorem map_piecesFrom (op : Operator) (l : Level) (offset : Nat) (cs : List Char) :
    (piecesFrom op (l.scan offset) cs).map (fun _ => ()) = l.check offset cs := by
  have forget {α β : Type} (f : α → β) (x : Except ScanError α) :
      (x.map f).map (fun _ => ()) = x.map fun _ => () := by
    cases x <;> rfl
  induction l, cs using operatorInduction op generalizing offset with
  | nil l =>
    rw [piecesFrom_nil, Level.check, forget]
    cases l.ending <;> rfl
  | operator rest ih => rw [piecesFrom_atOperator, forget, Level.check_symbol, ih]
  | other l c rest apart ih =>
    rw [piecesFrom_cons apart, Level.check]
    cases stands : l.next c with
    | none => rfl
    | some m =>
      dsimp only
      rw [forget, ih m stands]

theorem map_pieces (op : Operator) (cs : List Char) :
    (pieces op cs).map (fun _ => ()) = Level.top.check 0 cs :=
  map_piecesFrom op .top 0 cs

/-- The search for an operator accepts a text. -/
def Accepts (op : Operator) (cs : List Char) : Prop :=
  ∃ offsets, topLevelPositions op cs = .ok offsets

theorem topLevelPositions_eq_error_iff {cs : List Char} {e : ScanError} :
    topLevelPositions op cs = .error e ↔ Level.top.check 0 cs = .error e := by
  rw [← map_pieces op, topLevelPositions]
  cases pieces op cs <;> simp [Except.map]

theorem accepts_iff_pieces {cs : List Char} :
    Accepts op cs ↔ ∃ parts, pieces op cs = .ok parts := by
  rw [Accepts, topLevelPositions]
  cases pieces op cs <;> simp [Except.map]

/-- **A text is accepted when its literals end and its brackets match.** -/
theorem accepts_iff {cs : List Char} : Accepts op cs ↔ Level.top.after cs = some .top := by
  have checked : Level.top.check 0 cs = .ok () ↔ Level.top.after cs = some .top :=
    Level.check_eq_ok_iff
  rw [accepts_iff_pieces, ← checked, ← map_pieces op]
  cases pieces op cs <;> simp [Except.map]

/-- Behind an accepted text the rest of an accepted text is accepted. -/
theorem Accepts.of_append {a b : List Char} (ha : Accepts op a) (h : Accepts op (a ++ b)) :
    Accepts op b := by
  rw [accepts_iff] at ha h ⊢
  rwa [Level.after_append, ha, Option.bind_some] at h

/-! ## The search for a closing bracket -/

/-- The search ends when the account is closed. -/
theorem splitCloseFrom_cons (inside : l.nesting ≠ []) (c : Char) (rest : List Char) :
    splitCloseFrom l.quote l.nesting (c :: rest) =
      (l.next c).bind fun m =>
        if m = .top then some ([c], rest)
        else (splitCloseFrom m.quote m.nesting rest).map (beforeFirst [c]) := by
  obtain ⟨quote, nesting⟩ := l
  have goesOn (quote : Quote) (nesting : List Bracket) (h : nesting ≠ []) :
      (if (⟨quote, nesting⟩ : Level) = .top then some ([c], rest)
        else (splitCloseFrom quote nesting rest).map (beforeFirst [c])) =
      (splitCloseFrom quote nesting rest).map (beforeFirst [c]) := by
    apply if_neg
    intro same
    exact h (congrArg Level.nesting same)
  by_cases quoted : quote ≠ .outside
  · rw [Level.next_quoted quoted, splitCloseFrom_quoted quoted]
    exact (goesOn _ _ inside).symm
  · obtain rfl : quote = .outside := Decidable.not_not.mp quoted
    rw [splitCloseFrom, Level.next]
    simp only [ne_eq, not_true_eq_false, if_false]
    cases opener : Bracket.ofOpener? c with
    | some b => exact (goesOn _ _ (List.cons_ne_nil _ _)).symm
    | none =>
      cases closer : Bracket.ofCloser? c with
      | none => exact (goesOn _ _ inside).symm
      | some b =>
        obtain ⟨innermost, outer, rfl⟩ := List.exists_cons_of_ne_nil inside
        cases outer with
        | nil =>
          dsimp only
          split <;> rfl
        | cons next others =>
          dsimp only
          split
          · exact (goesOn _ _ (List.cons_ne_nil _ _)).symm
          · rfl

end CapabilityPipeline.Source
