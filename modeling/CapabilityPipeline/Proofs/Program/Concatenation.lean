import CapabilityPipeline.Proofs.Program.Accepted
import CapabilityPipeline.Proofs.Source.Concatenation

/-!
# Programs one after another

Two accepted texts with a line break between them are read as one program, the bindings and the
pipelines of the second after those of the first. This needs the names they assign to be
different, and the first text to leave the comments of the second alone. A literal that a line
break interrupts can fail to do so: the comment scanner takes it to end with its line, and the
parenthesis before it to be open still when the text ends.

Results:

* `parseStatements_append`: statements are read in the order they stand in, the later ones after
  the names that the earlier ones assign.
* `parseStatements_mono`: statements mean the same on other lines and after more names.
* `Program.parse_append`: the program of a text that follows another.
* `Program.parse_append_remark`: the texts that not every accepted text can follow.
-/

namespace CapabilityPipeline

open Source

/-! ## Statements -/

/-- The names known after a program. -/
def Program.namesAfter (known : NameSet) (p : Program) : NameSet :=
  p.names.foldl NameSet.add known

/-- The bindings and the pipelines of two programs, those of the first in front. -/
def Program.followedBy (p q : Program) : Program :=
  ⟨p.bindings ++ q.bindings, p.pipelines ++ q.pipelines⟩

theorem contains_foldl_add (names : List String) (known : NameSet) (name : String) :
    (names.foldl NameSet.add known).contains name = true ↔
      name ∈ names ∨ known.contains name = true := by
  induction names generalizing known with
  | nil => simp
  | cons first rest ih =>
    rw [List.foldl_cons, ih, NameSet.contains_add, List.mem_cons]
    tauto

theorem map_followedBy_cons {x : Except SyntaxError Program} (p : Program) (b : Binding) :
    (x.map p.followedBy >>= fun program =>
      (pure { program with bindings := b :: program.bindings } : Except SyntaxError Program)) =
      x.map (Program.followedBy { p with bindings := b :: p.bindings }) := by
  cases x <;> rfl

theorem map_followedBy_consPipeline {x : Except SyntaxError Program} (p : Program)
    (pipeline : Pipeline) :
    (x.map p.followedBy >>= fun program =>
      (pure { program with pipelines := pipeline :: program.pipelines } :
        Except SyntaxError Program)) =
      x.map (Program.followedBy { p with pipelines := pipeline :: p.pipelines }) := by
  cases x <;> rfl

/-- **Later statements are read after the names that earlier ones assign.** -/
theorem parseStatements_append {known : NameSet} {above : List Statement} {p : Program}
    (h : parseStatements known above = .ok p) (below : List Statement) :
    parseStatements known (above ++ below) =
      (parseStatements (p.namesAfter known) below).map p.followedBy := by
  induction above generalizing known p with
  | nil =>
    cases h
    show parseStatements known below = (parseStatements known below).map _
    cases parseStatements known below <;> rfl
  | cons statement rest ih =>
    obtain ⟨item, parsed, h⟩ := bind_eq_ok.mp h
    rw [List.cons_append, parseStatements, parsed]
    cases item with
    | binding b =>
      obtain ⟨program, later, h⟩ := bind_eq_ok.mp h
      cases h
      show (parseStatements (known.add b.name) (rest ++ below) >>= _) = _
      rw [ih later]
      exact map_followedBy_cons program b
    | pipeline pipeline =>
      obtain ⟨program, later, h⟩ := bind_eq_ok.mp h
      cases h
      show (parseStatements known (rest ++ below) >>= _) = _
      rw [ih later]
      exact map_followedBy_consPipeline program pipeline

/-- A statement means the same after more names, unless it assigns one of them. -/
theorem parseStatement_mono {known known' : NameSet} {cs : List Char} {item : Item}
    (more : ∀ name, known.contains name = true → known'.contains name = true)
    (h : parseStatement known cs = .ok item)
    (fresh : ∀ b, item = .binding b → known'.contains b.name = false) :
    parseStatement known' cs = .ok item := by
  have referenced {step : Step} (h : checkReferences known step = .ok ()) :
      checkReferences known' step = .ok () :=
    checkReferences_eq_ok.mpr fun name hname => more name (checkReferences_eq_ok.mp h name hname)
  obtain ⟨assignment, hsplit, h⟩ := bind_eq_ok.mp h
  refine bind_eq_ok.mpr ⟨assignment, hsplit, ?_⟩
  split at h
  · next name value =>
    split at h
    · cases h
    obtain ⟨_, single, h⟩ := bind_eq_ok.mp h
    obtain ⟨step, parsed, h⟩ := bind_eq_ok.mp h
    obtain ⟨_, references, h⟩ := bind_eq_ok.mp h
    cases h
    have new := fresh ⟨name, step⟩ rfl
    dsimp only at new ⊢
    rw [if_neg (by rw [new]; decide)]
    exact bind_eq_ok.mpr ⟨(), single, bind_eq_ok.mpr ⟨step, parsed,
      bind_eq_ok.mpr ⟨(), referenced references, rfl⟩⟩⟩
  · obtain ⟨pipeline, parsed, h⟩ := bind_eq_ok.mp h
    obtain ⟨_, references, h⟩ := bind_eq_ok.mp h
    cases h
    exact bind_eq_ok.mpr ⟨pipeline, parsed, bind_eq_ok.mpr ⟨(), forM_eq_ok.mpr fun step mem =>
      referenced (forM_eq_ok.mp references step mem), rfl⟩⟩

/-- **Statements mean the same on other lines and after more names**, unless they assign one of
these. -/
theorem parseStatements_mono {known known' : NameSet} {statements statements' : List Statement}
    {p : Program} (h : parseStatements known statements = .ok p)
    (texts : statements'.map Statement.text = statements.map Statement.text)
    (more : ∀ name, known.contains name = true → known'.contains name = true)
    (fresh : ∀ name ∈ p.names, known'.contains name = false) (distinct : p.names.Nodup) :
    parseStatements known' statements' = .ok p := by
  induction statements generalizing known known' statements' p with
  | nil =>
    rw [List.map_eq_nil_iff.mp texts]
    exact h
  | cons statement rest ih =>
    obtain ⟨statement', others, rfl, same, texts⟩ := List.map_eq_cons_iff.mp texts
    obtain ⟨item, parsed, h⟩ := bind_eq_ok.mp h
    have parsed := mapError_eq_ok.mp parsed
    cases item with
    | binding b =>
      obtain ⟨program, later, h⟩ := bind_eq_ok.mp h
      cases h
      obtain ⟨new, newer⟩ := List.forall_mem_cons.mp fresh
      obtain ⟨once, distinct⟩ := List.nodup_cons.mp distinct
      have again := parseStatement_mono more parsed fun b' same => by
        cases same
        exact new
      have rest : parseStatements (known'.add b.name) others = .ok program :=
        ih later texts (fun name hname => ?_) (fun name hname => ?_) distinct
      · rw [← same] at again
        exact bind_eq_ok.mpr ⟨_, mapError_eq_ok.mpr again, bind_eq_ok.mpr ⟨_, rest, rfl⟩⟩
      · rw [NameSet.contains_add] at hname ⊢
        exact hname.imp id (more name)
      · rw [Bool.eq_false_iff]
        intro already
        rcases (NameSet.contains_add known' b.name name).mp already with rfl | already
        · exact once hname
        · rw [newer name hname] at already
          cases already
    | pipeline pipeline =>
      obtain ⟨program, later, h⟩ := bind_eq_ok.mp h
      cases h
      have again := parseStatement_mono more parsed fun b same => by cases same
      rw [← same] at again
      exact bind_eq_ok.mpr ⟨_, mapError_eq_ok.mpr again,
        bind_eq_ok.mpr ⟨_, ih later texts more fresh distinct, rfl⟩⟩

/-- Statements that are read stay apart from the lines above and below them. -/
theorem isolated_of_parseStatements {known : NameSet} {statements : List Statement} {p : Program}
    (tidy : ∀ s ∈ statements, Text.Tidy s.text) (h : parseStatements known statements = .ok p) :
    ∀ s ∈ statements, Isolated s.text := by
  induction statements generalizing known p with
  | nil => exact fun _ none => by cases none
  | cons statement rest ih =>
    obtain ⟨item, parsed, h⟩ := bind_eq_ok.mp h
    obtain ⟨first, others⟩ := List.forall_mem_cons.mp tidy
    refine List.forall_mem_cons.mpr
      ⟨isolated_of_parseStatement first (mapError_eq_ok.mp parsed), ?_⟩
    cases item with
    | binding b =>
      obtain ⟨program, later, -⟩ := bind_eq_ok.mp h
      exact ih others later
    | pipeline pipeline =>
      obtain ⟨program, later, -⟩ := bind_eq_ok.mp h
      exact ih others later

/-! ## Programs -/

namespace Program

/-- The statements of a program text, without its comments. -/
def statementsOf (code : String) : List Statement :=
  statements (stripComments code.toList)

theorem parse_eq_ok {code : String} {p : Program} :
    parse code = .ok p ↔
      statementsOf code ≠ [] ∧ parseStatements .empty (statementsOf code) = .ok p := by
  unfold parse statementsOf
  split
  · next none => simp [none]
  · next some => exact ⟨fun h => ⟨some, h⟩, And.right⟩

theorem parse_of_ne_nil {code : String} (h : statementsOf code ≠ []) :
    parse code = parseStatements .empty (statementsOf code) := by
  unfold parse statementsOf
  split
  · next none => exact absurd none h
  · rfl

theorem isolated_of_parse {code : String} {p : Program} (h : parse code = .ok p) :
    ∀ s ∈ statementsOf code, Isolated s.text :=
  isolated_of_parseStatements tidy_of_statements (parse_eq_ok.mp h).2

theorem toList_joined (a b : String) :
    (a ++ "\n" ++ b).toList = a.toList ++ '\n' :: b.toList := by
  simp

section

variable {a : String} {p : Program} (ha : parse a = .ok p)

include ha in
/-- The statements of a text below an accepted one, if its comments are left alone. -/
theorem statementsOf_append {b : String}
    (fresh : ∀ s ∈ statementsOf b, startsWithOperator s.text = false)
    (comments : LeavesComments a.toList b.toList) :
    statementsOf (a ++ "\n" ++ b) = statementsOf a ++
      (statementsOf b).map (.below (a.toList.count '\n' + 1)) := by
  rw [statementsOf, toList_joined, comments,
    statements_append (fun s hs => (isolated_of_parse ha s hs).below) fresh, count_stripComments]
  rfl

include ha in
/-- The program of an accepted text below another, if its comments are left alone. -/
theorem parse_joined {b : String} {q : Program} (hb : parse b = .ok q)
    (names : p.names.Disjoint q.names) (comments : LeavesComments a.toList b.toList) :
    parse (a ++ "\n" ++ b) = .ok (p.followedBy q) := by
  have split := statementsOf_append ha (fun s hs => (isolated_of_parse hb s hs).above) comments
  obtain ⟨nonempty, above⟩ := parse_eq_ok.mp ha
  refine parse_eq_ok.mpr ⟨?_, ?_⟩
  · rw [split]
    exact fun none => nonempty (List.append_eq_nil_iff.mp none).1
  · have below : parseStatements (p.namesAfter .empty)
        ((statementsOf b).map (.below (a.toList.count '\n' + 1))) = .ok q :=
      parseStatements_mono (parse_eq_ok.mp hb).2 ?_ ?_ ?_ (wellFormed_of_parse hb).distinct
    · rw [split, parseStatements_append above, below]
      rfl
    · rw [List.map_map]
      rfl
    · intro name known
      exact (contains_foldl_add _ _ _).mpr (.inr known)
    · intro name new
      rw [Bool.eq_false_iff]
      intro known
      rcases (contains_foldl_add _ _ _).mp known with old | unknown
      · exact names old new
      · cases unknown

/-- A text with a comment and a step below it. -/
def remark : String := "#\n[x:y]"

include ha in
/-- Below a text that does not close its lines a comment on the first line is read as a
statement. -/
theorem parse_append_remark (unclosed : ¬ ClosesLines a.toList) :
    ∃ line, parse (a ++ "\n" ++ remark) =
      .error { line := some line, cause := .expectedStep "#" } := by
  have kept := keep_of_not_closesLines unclosed (show '#' ∉ "\n[x:y]".toList by decide)
  have split := statements_append (fun s hs => (isolated_of_parse ha s hs).below)
    (b := remark.toList) (by decide)
  obtain ⟨nonempty, above⟩ := parse_eq_ok.mp ha
  have shape : statementsOf (a ++ "\n" ++ remark) = statementsOf a ++
      (statements remark.toList).map (.below ((stripComments a.toList).count '\n' + 1)) := by
    rw [statementsOf, toList_joined]
    exact (congrArg statements kept).trans split
  refine ⟨1 + ((stripComments a.toList).count '\n' + 1), ?_⟩
  rw [parse_of_ne_nil, shape, parseStatements_append above]
  · rfl
  · rw [shape]
    exact fun none => nonempty (List.append_eq_nil_iff.mp none).1

include ha in
/-- **An accepted text with another below it.** Where the comments of the text below are left
alone, its statements are added unchanged, and with names of its own the programs are put
together. Every accepted text can stand below exactly if the text above leaves the comment scanner
where it started. -/
theorem parse_append :
    (∀ b q, parse b = .ok q → LeavesComments a.toList b.toList →
      statementsOf (a ++ "\n" ++ b) = statementsOf a ++
        (statementsOf b).map (.below (a.toList.count '\n' + 1)) ∧
      (p.names.Disjoint q.names →
        parse (a ++ "\n" ++ b) = .ok ⟨p.bindings ++ q.bindings, p.pipelines ++ q.pipelines⟩)) ∧
    (ClosesLines a.toList ↔ ∀ b q, parse b = .ok q → p.names.Disjoint q.names →
      parse (a ++ "\n" ++ b) = .ok ⟨p.bindings ++ q.bindings, p.pipelines ++ q.pipelines⟩) := by
  refine ⟨fun b q hb comments => ⟨?_, fun names => parse_joined ha hb names comments⟩,
    fun closes b q hb names => parse_joined ha hb names (closes.leavesComments _), fun all => ?_⟩
  · exact statementsOf_append ha (fun s hs => (isolated_of_parse hb s hs).above) comments
  · by_contra unclosed
    obtain ⟨line, failed⟩ := parse_append_remark ha unclosed
    have accepted : parse remark = .ok ⟨[], [⟨[.single (.ofRoute "x" "y")]⟩]⟩ := by decide +kernel
    rw [all remark _ accepted (List.disjoint_nil_right _)] at failed
    cases failed

end

/-- A comment and a target with a `#` above a comment and a binding of another name. -/
theorem parse_append_mail :
    ∃ p q, parse "$a = [m:find](\"b >> # (\") # first" = .ok p ∧
      parse "# then\n$b = [m:list]()\n[m:send]('$b')" = .ok q ∧
      parse ("$a = [m:find](\"b >> # (\") # first" ++ "\n" ++
        "# then\n$b = [m:list]()\n[m:send]('$b')") =
          .ok ⟨p.bindings ++ q.bindings, p.pipelines ++ q.pipelines⟩ := by
  have above : parse "$a = [m:find](\"b >> # (\") # first" =
      .ok ⟨[⟨"a", ⟨"m", "find", some "b >> # (", []⟩⟩], []⟩ := by decide +kernel
  have below : parse "# then\n$b = [m:list]()\n[m:send]('$b')" =
      .ok ⟨[⟨"b", ⟨"m", "list", none, []⟩⟩], [⟨[.single ⟨"m", "send", some "$b", []⟩]⟩]⟩ := by
    decide +kernel
  exact ⟨_, _, above, below,
    (parse_append above).2.mp (by decide +kernel) _ _ below (by simp [names])⟩

/-- A line break inside the literal of a target: the text leaves the comment scanner inside the
target, and the comment below it is read as a statement. -/
theorem parse_openTarget_above_remark :
    parse "[x:y](\"abc\ndef\")" = .ok ⟨[], [⟨[.single ⟨"x", "y", some "abc def", []⟩]⟩]⟩ ∧
    parse "# c\n[z:w]" = .ok ⟨[], [⟨[.single (.ofRoute "z" "w")]⟩]⟩ ∧
    parse ("[x:y](\"abc\ndef\")" ++ "\n" ++ "# c\n[z:w]") =
      .error { line := some 3, cause := .expectedStep "# c" } := by
  decide +kernel

end Program

end CapabilityPipeline
