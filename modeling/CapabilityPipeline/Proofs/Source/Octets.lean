import CapabilityPipeline.Proofs.Source.Level
import CapabilityPipeline.Text.Octets

/-!
# Scanning octets

A scanner may take a text octet by octet. The octets of a character beyond ASCII are all beyond
ASCII, and no scanner gives them a meaning: in a literal they are ordinary, and one of them ends
an escape as the whole character does. So a scan of the octets finds what a scan of the
characters finds, at the same byte offsets.

Results:

* `octetOffsets`, `octetClose`: the two searches, one octet at a time.
* `positionsFrom_cons`: the offsets of an operator, found one character at a time.
* `octetOffsets_eq`, `octetClose_eq`: the searches in the octets of a text.
-/

namespace CapabilityPipeline.Source

open Text

/-! ## Scanners -/

/-- The offsets of an operator from an offset on. As many octets as are pending belong to an
operator that was found. -/
def octetOffsetsFrom (op : Operator) :
    (offset pending : Nat) → Level → Octets → Except ScanError (List Nat)
  | _, _, l, [] => l.ending.map fun _ => []
  | offset, pending + 1, l, _ :: rest => octetOffsetsFrom op (offset + 1) pending l rest
  | offset, 0, l, o :: rest =>
    if l = .top ∧ op.symbol.isPrefixOf (o :: rest) then
      (octetOffsetsFrom op (offset + 1) (op.symbol.length - 1) l rest).map (offset :: ·)
    else match l.next o with
      | none => .error (.unbalanced o offset)
      | some l => octetOffsetsFrom op (offset + 1) 0 l rest

/-- The offsets of an operator outside literals and brackets. -/
def octetOffsets (op : Operator) (octets : Octets) : Except ScanError (List Nat) :=
  octetOffsetsFrom op 0 0 .top octets

/-- The offset at which the account is closed, from an offset on. -/
def octetCloseFrom : (offset : Nat) → Level → Octets → Option Nat
  | _, _, [] => none
  | offset, l, o :: rest =>
    (l.next o).bind fun l => if l = .top then some offset else octetCloseFrom (offset + 1) l rest

/-- The offset of the bracket that closes the one at the start. -/
def octetClose : Octets → Option Nat
  | [] => none
  | o :: rest => if (Bracket.ofOpener? o).isSome then octetCloseFrom 0 .top (o :: rest) else none

/-! ## The octets of a text -/

/-- The octets of characters. -/
def octetsOf (cs : List Char) : Octets :=
  Octets.ofSymbols (cs.map .char)

theorem toList_loop_toByteArray (bytes : ByteArray) (i : Nat) (taken : List UInt8) :
    ByteArray.toList.loop bytes i taken = taken.reverse ++ bytes.data.toList.drop i := by
  fun_induction ByteArray.toList.loop bytes i taken with
  | case1 i taken inside ih =>
    have bound : i < bytes.data.toList.length := by simpa using inside
    rw [ih, List.drop_eq_getElem_cons bound]
    simp [ByteArray.get!, inside]
  | case2 i taken outside =>
    rw [List.drop_eq_nil_of_le (by simpa using Nat.le_of_not_lt outside)]
    simp

theorem toList_toUTF8_singleton (c : Char) :
    (String.ofList [c]).toUTF8.toList = String.utf8EncodeChar c := by
  rw [String.toUTF8_eq_toByteArray, String.toByteArray_ofList, List.utf8Encode_singleton,
    ByteArray.toList, toList_loop_toByteArray]
  simp

theorem octetsOf_nil : octetsOf [] = [] := rfl

theorem octetsOf_cons (c : Char) (cs : List Char) :
    octetsOf (c :: cs) = Octets.ofBytes (String.utf8EncodeChar c) ++ octetsOf cs := by
  rw [← toList_toUTF8_singleton, octetsOf, octetsOf, Octets.ofSymbols, Octets.ofSymbols,
    Symbol.encode, Symbol.encode, List.map_cons, List.flatMap_cons, Octets.ofBytes, Octets.ofBytes,
    Octets.ofBytes, List.map_append]

theorem utf8Size_of_lt {c : Char} (h : c.toNat < 128) : c.utf8Size = 1 := by
  rw [Char.utf8Size_eq_one_iff, UInt32.le_iff_toNat_le]
  exact Nat.le_of_lt_succ h

/-- A character of ASCII is its own octet. -/
theorem octetsOf_ascii {c : Char} (h : c.toNat < 128) (cs : List Char) :
    octetsOf (c :: cs) = c :: octetsOf cs := by
  have value : c.val.toNat ≤ 127 := by
    change c.toNat ≤ 127
    omega
  rw [octetsOf_cons, String.utf8EncodeChar, if_pos value, Octets.ofBytes]
  have back : Char.ofNat (UInt8.ofNat c.val.toNat).toNat = c := by
    change Char.ofNat (c.toNat % 256) = c
    rw [Nat.mod_eq_of_lt (by omega), Char.ofNat_toNat]
  rw [List.map_singleton, back, List.singleton_append]

/-- The octets of a character beyond ASCII are beyond ASCII. -/
theorem octetsOf_of_ge {c : Char} (h : 128 ≤ c.toNat) (cs : List Char) :
    ∃ o more, octetsOf (c :: cs) = o :: (more ++ octetsOf cs) ∧ more.length + 1 = c.utf8Size ∧
      ∀ x ∈ o :: more, 128 ≤ x.toNat := by
  have beyond : ∀ x ∈ Octets.ofBytes (String.utf8EncodeChar c), 128 ≤ x.toNat := by
    intro x hx
    obtain ⟨b, hb, rfl⟩ := List.mem_map.mp hx
    have byte : b.toNat < 256 := b.toNat_lt
    rw [Char.toNat_ofNat, if_pos (.inl (by omega))]
    have high (n : Nat) (low : 128 ≤ n % 256) (same : b = UInt8.ofNat n) : 128 ≤ b.toNat := by
      rw [same]
      exact low
    have value : ¬ c.val.toNat ≤ 127 := by
      change ¬ c.toNat ≤ 127
      omega
    rw [String.utf8EncodeChar, if_neg value] at hb
    split_ifs at hb <;> simp only [List.mem_cons, List.not_mem_nil, or_false] at hb
    · rcases hb with same | same
      all_goals exact high _ (by omega) same
    · rcases hb with same | same | same
      all_goals exact high _ (by omega) same
    · rcases hb with same | same | same | same
      all_goals exact high _ (by omega) same
  have length : (Octets.ofBytes (String.utf8EncodeChar c)).length = c.utf8Size := by
    rw [Octets.ofBytes, List.length_map, String.length_utf8EncodeChar]
  rw [octetsOf_cons]
  generalize Octets.ofBytes (String.utf8EncodeChar c) = octets at beyond length
  cases octets with
  | nil =>
    have positive := c.utf8Size_pos
    simp only [List.length_nil] at length
    omega
  | cons o more => exact ⟨o, more, rfl, length, beyond⟩

/-! ## Characters beyond ASCII -/

/-- The account behind a character beyond ASCII, which only ends an escape. -/
def Level.settled (l : Level) : Level :=
  { l with quote := if l.quote = .escaped then .inside else l.quote }

theorem Level.settled_settled (l : Level) : l.settled.settled = l.settled := by
  obtain ⟨quote, nesting⟩ := l
  cases quote <;> rfl

/-- A character beyond ASCII is neither a bracket nor a quote. -/
theorem isQuiet_of_ge {c : Char} (h : 128 ≤ c.toNat) : isQuiet c = true :=
  isQuiet_of_class (fun c => 128 ≤ c.toNat) (by decide) (decide_eq_true h)

theorem avoids_of_ge (op : Operator) {c : Char} (h : 128 ≤ c.toNat) : op.avoids c = true :=
  avoids_of_isOperand op (isOperand_of_class (fun c => 128 ≤ c.toNat) (by decide)
    (decide_eq_true h))

theorem Level.next_of_ge (l : Level) {c : Char} (h : 128 ≤ c.toNat) :
    l.next c = some l.settled := by
  have backslash : c ≠ '\\' := by
    rintro rfl
    revert h
    decide
  have quiet := isQuiet_of_ge h
  obtain ⟨-, -, quote⟩ := isQuiet_iff.mp quiet
  obtain ⟨place, nesting⟩ := l
  cases place with
  | outside => exact next_quiet rfl quiet
  | inside =>
    rw [next_quoted (fun outside => by cases outside), next_inside quote backslash]
    rfl
  | escaped => exact next_quoted (fun outside => by cases outside) c

/-- An operator stands at the same places among the octets of a text. -/
theorem isPrefixOf_octetsOf (op : Operator) (cs : List Char) :
    op.symbol.isPrefixOf (octetsOf cs) = op.symbol.isPrefixOf cs := by
  have same (symbol : List Char) (ascii : ∀ c ∈ symbol, c.toNat < 128) (cs : List Char) :
      symbol.isPrefixOf (octetsOf cs) = symbol.isPrefixOf cs := by
    induction symbol generalizing cs with
    | nil => rw [List.isPrefixOf, List.isPrefixOf]
    | cons s symbol ih =>
      obtain ⟨first, later⟩ := List.forall_mem_cons.mp ascii
      cases cs with
      | nil => rfl
      | cons c cs =>
        by_cases low : c.toNat < 128
        · rw [octetsOf_ascii low, List.isPrefixOf_cons_cons, List.isPrefixOf_cons_cons, ih later]
        · obtain ⟨o, more, octets, -, beyond⟩ := octetsOf_of_ge (Nat.le_of_not_lt low) cs
          have differs (d : Char) (h : 128 ≤ d.toNat) : (s == d) = false := by
            apply beq_eq_false_iff_ne.mpr
            rintro rfl
            omega
          rw [octets, List.isPrefixOf_cons_cons, List.isPrefixOf_cons_cons,
            differs o (beyond o (List.mem_cons_self ..)), differs c (Nat.le_of_not_lt low),
            Bool.false_and, Bool.false_and]
  exact same op.symbol (by cases op <;> simp [Operator.symbol]) cs

/-! ## Offsets of operators -/

/-- The offsets of an operator in a text from a level and an offset on. -/
def positionsFrom (op : Operator) (l : Level) (offset : Nat) (cs : List Char) :
    Except ScanError (List Nat) :=
  (piecesFrom op (l.scan offset) cs).map (operatorOffsets op offset)

theorem operatorOffsets_cons (op : Operator) (offset : Nat) (part : List Char)
    {others : List (List Char)} (some : others ≠ []) :
    operatorOffsets op offset (part :: others) = (offset + byteCount part) ::
      operatorOffsets op (offset + byteCount part + byteCount op.symbol) others := by
  obtain ⟨next, more, rfl⟩ := List.exists_cons_of_ne_nil some
  rfl

theorem operatorOffsets_consFirst (op : Operator) (offset : Nat) (c : Char)
    {parts : List (List Char)} (some : parts ≠ []) :
    operatorOffsets op offset (consFirst c parts) =
      operatorOffsets op (offset + c.utf8Size) parts := by
  match parts, some with
  | [_], _ => rfl
  | part :: next :: others, _ =>
    rw [consFirst, operatorOffsets_cons _ _ _ (List.cons_ne_nil _ _),
      operatorOffsets_cons _ _ _ (List.cons_ne_nil _ _), byteCount_cons,
      Nat.add_assoc offset c.utf8Size]

variable {op : Operator} {l : Level}

theorem piecesFrom_ne_nil {offset : Nat} {cs : List Char} {parts : List (List Char)}
    (h : piecesFrom op (l.scan offset) cs = .ok parts) : parts ≠ [] :=
  (splits_of_piecesFrom h).ne_nil

theorem positionsFrom_nil (op : Operator) (l : Level) (offset : Nat) :
    positionsFrom op l offset [] = l.ending.map fun _ => [] := by
  rw [positionsFrom, piecesFrom_nil]
  cases l.ending <;> rfl

theorem positionsFrom_operator (op : Operator) (offset : Nat) (rest : List Char) :
    positionsFrom op .top offset (op.symbol ++ rest) =
      (positionsFrom op .top (offset + byteCount op.symbol) rest).map (offset :: ·) := by
  rw [positionsFrom, piecesFrom_atOperator, positionsFrom]
  cases found : piecesFrom op (Level.top.scan (offset + byteCount op.symbol)) rest with
  | error e => rfl
  | ok parts => exact congrArg _ (operatorOffsets_cons op offset [] (piecesFrom_ne_nil found))

/-- A character at which no operator stands at top level. -/
theorem positionsFrom_cons {c : Char} {rest : List Char}
    (apart : l = .top → op.symbol.isPrefixOf (c :: rest) = false) (offset : Nat) :
    positionsFrom op l offset (c :: rest) =
      match l.next c with
      | none => .error (.unbalanced c offset)
      | some m => positionsFrom op m (offset + c.utf8Size) rest := by
  rw [positionsFrom, piecesFrom_cons apart]
  cases l.next c with
  | none => rfl
  | some m =>
    dsimp only
    rw [positionsFrom]
    cases found : piecesFrom op (m.scan (offset + c.utf8Size)) rest with
    | error e => rfl
    | ok parts =>
      exact congrArg _ (operatorOffsets_consFirst op offset c (piecesFrom_ne_nil found))

/-- Octets beyond ASCII are passed over when no escape is to end. -/
theorem octetOffsetsFrom_append (h : l.settled = l) {octets : Octets}
    (beyond : ∀ o ∈ octets, 128 ≤ o.toNat) (offset : Nat) (rest : Octets) :
    octetOffsetsFrom op offset 0 l (octets ++ rest) =
      octetOffsetsFrom op (offset + octets.length) 0 l rest := by
  induction octets generalizing offset with
  | nil => rfl
  | cons o more ih =>
    obtain ⟨first, later⟩ := List.forall_mem_cons.mp beyond
    rw [List.cons_append, octetOffsetsFrom, Operator.not_isPrefixOf (avoids_of_ge op first),
      l.next_of_ge first, h]
    simp only [Bool.false_eq_true, and_false, if_false]
    rw [ih later, List.length_cons]
    congr 1
    omega

/-- An operator at top level. -/
theorem octetOffsetsFrom_operator (op : Operator) (offset : Nat) (rest : List Char) :
    octetOffsetsFrom op offset 0 .top (octetsOf (op.symbol ++ rest)) =
      (octetOffsetsFrom op (offset + byteCount op.symbol) 0 .top (octetsOf rest)).map
        (offset :: ·) := by
  cases op <;> simp [Operator.symbol, octetsOf_ascii, octetOffsetsFrom, byteCount, utf8Size_of_lt]

/-- **A scan of the octets of a text finds operators where a scan of its characters does.** -/
theorem octetOffsetsFrom_octetsOf (op : Operator) (l : Level) (offset : Nat) (cs : List Char) :
    octetOffsetsFrom op offset 0 l (octetsOf cs) = positionsFrom op l offset cs := by
  induction l, cs using operatorInduction op generalizing offset with
  | nil l => rw [octetsOf_nil, octetOffsetsFrom, positionsFrom_nil]
  | operator rest ih => rw [octetOffsetsFrom_operator, ih, positionsFrom_operator]
  | other l c rest apart ih =>
    rw [positionsFrom_cons apart]
    by_cases low : c.toNat < 128
    · have passed : ¬(l = .top ∧ op.symbol.isPrefixOf (c :: octetsOf rest) = true) := by
        rintro ⟨top, isFront⟩
        rw [← octetsOf_ascii low, isPrefixOf_octetsOf, apart top] at isFront
        cases isFront
      rw [octetsOf_ascii low, octetOffsetsFrom, if_neg passed]
      cases stands : l.next c with
      | none => rfl
      | some m =>
        dsimp only
        rw [ih m stands, utf8Size_of_lt low]
    · obtain ⟨o, more, octets, length, beyond⟩ := octetsOf_of_ge (Nat.le_of_not_lt low) rest
      obtain ⟨first, later⟩ := List.forall_mem_cons.mp beyond
      have stands := l.next_of_ge (Nat.le_of_not_lt low)
      rw [octets, octetOffsetsFrom, Operator.not_isPrefixOf (avoids_of_ge op first),
        l.next_of_ge first, stands]
      simp only [Bool.false_eq_true, and_false, if_false]
      rw [octetOffsetsFrom_append l.settled_settled later, ih _ stands, Nat.add_assoc,
        Nat.add_comm 1, length]

/-- **The octets of a text have an operator where its characters do.** -/
theorem octetOffsets_eq (op : Operator) (cs : List Char) :
    octetOffsets op (octetsOf cs) = topLevelPositions op cs :=
  octetOffsetsFrom_octetsOf op .top 0 cs

/-! ## Offsets of closing brackets -/

/-- The offset of the last octet of the text up to the bracket that closes the outermost open
one. -/
def closeFrom (l : Level) (offset : Nat) (cs : List Char) : Option Nat :=
  (splitCloseFrom l.quote l.nesting cs).map fun (inner, _) => offset + byteCount inner - 1

theorem closeFrom_cons {l : Level} (inside : l.nesting ≠ []) (offset : Nat) (c : Char)
    (rest : List Char) :
    closeFrom l offset (c :: rest) = (l.next c).bind fun m =>
      if m = .top then some (offset + c.utf8Size - 1)
      else closeFrom m (offset + c.utf8Size) rest := by
  rw [closeFrom, splitCloseFrom_cons inside]
  cases l.next c with
  | none => rfl
  | some m =>
    rw [Option.bind_some, Option.bind_some]
    split
    · rfl
    · rw [closeFrom, Option.map_map]
      congr 1
      funext found
      simp only [Function.comp, beforeFirst, List.singleton_append, byteCount_cons]
      omega

/-- Octets beyond ASCII close no bracket. -/
theorem octetCloseFrom_append {l : Level} (inside : l.nesting ≠ []) (h : l.settled = l)
    {octets : Octets} (beyond : ∀ o ∈ octets, 128 ≤ o.toNat) (offset : Nat) (rest : Octets) :
    octetCloseFrom offset l (octets ++ rest) = octetCloseFrom (offset + octets.length) l rest := by
  have goesOn : l ≠ .top := by
    rintro rfl
    exact inside rfl
  induction octets generalizing offset with
  | nil => rfl
  | cons o more ih =>
    obtain ⟨first, later⟩ := List.forall_mem_cons.mp beyond
    rw [List.cons_append, octetCloseFrom, l.next_of_ge first, h, Option.bind_some, if_neg goesOn,
      ih later, List.length_cons]
    congr 1
    omega

theorem octetCloseFrom_octetsOf {l : Level} (inside : l.nesting ≠ []) (offset : Nat)
    (cs : List Char) : octetCloseFrom offset l (octetsOf cs) = closeFrom l offset cs := by
  induction cs generalizing l offset with
  | nil =>
    obtain ⟨quote, nesting⟩ := l
    cases quote <;> rfl
  | cons c rest ih =>
    rw [closeFrom_cons inside]
    by_cases low : c.toNat < 128
    · rw [octetsOf_ascii low, octetCloseFrom, utf8Size_of_lt low]
      cases stands : l.next c with
      | none => rfl
      | some m =>
        rw [Option.bind_some, Option.bind_some]
        split
        · rfl
        · next notTop =>
          exact ih ((Level.next_eq_top_or inside stands).resolve_left notTop) _
    · obtain ⟨o, more, octets, length, beyond⟩ := octetsOf_of_ge (Nat.le_of_not_lt low) rest
      obtain ⟨first, later⟩ := List.forall_mem_cons.mp beyond
      have goesOn : l.settled ≠ .top := fun same => inside (congrArg Level.nesting same)
      rw [octets, octetCloseFrom, l.next_of_ge first, l.next_of_ge (Nat.le_of_not_lt low),
        Option.bind_some, Option.bind_some, if_neg goesOn, if_neg goesOn,
        octetCloseFrom_append (l := l.settled) inside l.settled_settled later,
        ih (l := l.settled) inside, Nat.add_assoc, Nat.add_comm 1, length]

/-- **The octets of a text have a closing bracket where its characters do.** -/
theorem octetClose_eq (cs : List Char) : octetClose (octetsOf cs) = matchingClose cs := by
  cases cs with
  | nil => rfl
  | cons c rest =>
    rw [matchingClose, splitClose]
    cases opener : Bracket.ofOpener? c with
    | none =>
      by_cases low : c.toNat < 128
      · rw [octetsOf_ascii low, octetClose, opener]
        rfl
      · obtain ⟨o, more, octets, -, beyond⟩ := octetsOf_of_ge (Nat.le_of_not_lt low) rest
        have quiet := isQuiet_iff.mp (isQuiet_of_ge (beyond o (List.mem_cons_self ..)))
        rw [octets, octetClose, quiet.1]
        rfl
    | some b =>
      obtain rfl := Bracket.eq_opener opener
      have low : b.opener.toNat < 128 := by cases b <;> simp [Bracket.opener]
      have opened : Level.top.next b.opener = some ⟨.outside, [b]⟩ := Level.next_opener rfl b
      have goesOn : (⟨.outside, [b]⟩ : Level) ≠ .top := fun same => by cases same
      have search := octetCloseFrom_octetsOf (l := ⟨.outside, [b]⟩) (List.cons_ne_nil _ _) 1 rest
      rw [octetsOf_ascii low, octetClose, opener, octetCloseFrom, opened, Option.bind_some,
        if_neg goesOn, search, closeFrom]
      simp [Function.comp_def, byteCount_cons, utf8Size_of_lt low]

end CapabilityPipeline.Source
