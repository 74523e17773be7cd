import CapabilityPipeline.Files.Path
import CapabilityPipeline.Proofs.Text.Trim

/-!
# Paths into a directory

A file in a directory, its backup and its temporary file have paths that are written differently:
slashes and lone dots may be missing. What counts is the names that they go through.

Results:

* `Path.names`: the names that a path goes through.
* `Path.IsIn`: a path that goes through the names of a directory to one more name.
* `Path.isIn_join`, `Path.isIn_withSuffix`: a joined path is one, and so it is with a suffix.
-/

namespace CapabilityPipeline.Path

/-! ## Names -/

/-- The names that a path goes through: its pieces without those that stay where they are. -/
def names (cs : List Char) : List String :=
  ((split cs).map String.ofList).filter fun name => name ≠ "" && name ≠ "."

theorem split_eq_splitAt (cs : List Char) : split cs = Text.splitAt (· == '/') cs := by
  induction cs with
  | nil => rfl
  | cons c rest ih =>
    rw [split, Text.splitAt, ih]
    by_cases h : c = '/'
    · rw [if_pos h, if_pos (by simp [h])]
    · cases Text.splitAt (· == '/') rest <;> simp [h]

theorem split_append (a b : List Char) : split (a ++ '/' :: b) = split a ++ split b := by
  rw [split_eq_splitAt, split_eq_splitAt, split_eq_splitAt,
    Text.splitAt_append_separator (by rfl)]

theorem split_of_not_mem {cs : List Char} (h : '/' ∉ cs) : split cs = [cs] := by
  rw [split_eq_splitAt]
  refine Text.splitAt_of_not_mem fun c hc => ?_
  rw [beq_eq_false_iff_ne]
  rintro rfl
  exact h hc

theorem names_append (a b : List Char) : names (a ++ '/' :: b) = names a ++ names b := by
  rw [names, split_append, List.map_append, List.filter_append]
  rfl

theorem names_nil : names [] = [] := by decide

theorem names_concat (cs : List Char) : names (cs ++ ['/']) = names cs := by
  rw [names_append, names_nil, List.append_nil]

theorem names_slashes (cs : List Char) {slashes : List Char} (h : ∀ c ∈ slashes, c = '/') :
    names (cs ++ slashes) = names cs := by
  induction slashes generalizing cs with
  | nil => rw [List.append_nil]
  | cons c rest ih =>
    obtain ⟨rfl, later⟩ := List.forall_mem_cons.mp h
    rw [← names_concat cs, ← ih (cs ++ ['/']) later, List.append_assoc]
    rfl

/-- A path is what comes before its last slashes, and slashes. -/
theorem eq_front_slashes (path : String) : ∃ front slashes : List Char,
    path.toList = front ++ slashes ∧ (∀ c ∈ slashes, c = '/') ∧
      (front = [] ∧ withoutLastSlashes path = (if path = "" then "" else "/") ∨
        front ≠ [] ∧ (withoutLastSlashes path).toList = front) := by
  refine ⟨(path.toList.reverse.dropWhile (· = '/')).reverse,
    (path.toList.reverse.takeWhile (· = '/')).reverse, ?_, fun c hc => ?_, ?_⟩
  · rw [← List.reverse_append, List.takeWhile_append_dropWhile, List.reverse_reverse]
  · simpa using List.all_eq_true.mp List.all_takeWhile c (List.mem_reverse.mp hc)
  · unfold withoutLastSlashes
    cases path.toList.reverse.dropWhile (· = '/') with
    | nil => exact .inl ⟨rfl, rfl⟩
    | cons c rest =>
      exact .inr ⟨List.reverse_ne_nil_iff.mpr (List.cons_ne_nil c rest), String.toList_ofList⟩

/-- Without its last slashes a path goes through the same names from the same place. -/
theorem names_withoutLastSlashes (path : String) :
    names (withoutLastSlashes path).toList = names path.toList ∧
      isAbsolute (withoutLastSlashes path) = isAbsolute path ∧
      (path ≠ "" → withoutLastSlashes path ≠ "") := by
  obtain ⟨front, slashes, whole, all, ⟨rfl, same⟩ | ⟨some, same⟩⟩ := eq_front_slashes path
  · rw [same]
    split
    · next empty =>
      rw [empty]
      exact ⟨rfl, rfl, id⟩
    · next nonempty =>
      have named := names_slashes [] all
      rw [← whole] at named
      obtain ⟨c, rest, first⟩ := List.exists_cons_of_ne_nil (mt String.toList_eq_nil_iff.mp nonempty)
      obtain rfl : c = '/' := all c (by rw [← List.nil_append slashes, ← whole, first]; simp)
      refine ⟨by rw [named]; decide, ?_, fun _ => by decide⟩
      rw [isAbsolute, isAbsolute, first]
      rfl
  · refine ⟨?_, ?_, fun _ empty => some ?_⟩
    · rw [same, whole, names_slashes front all]
    · obtain ⟨c, rest, rfl⟩ := List.exists_cons_of_ne_nil some
      rw [isAbsolute, isAbsolute, same, whole]
      rfl
    · rw [← same, empty]
      rfl

/-- A name that a file can have, and no path of several pieces. -/
structure IsName (name : String) : Prop where
  noSlash : '/' ∉ name.toList
  last : ∃ c, name.toList.getLast? = some c ∧ c ≠ '.'

namespace IsName

variable {name : String}

theorem ne (h : IsName name) : name ≠ "" ∧ name ≠ "." ∧ name ≠ ".." := by
  obtain ⟨c, last, dot⟩ := h.last
  refine ⟨?_, ?_, ?_⟩ <;> rintro rfl <;> cases last <;> exact dot rfl

theorem last_ne_slash (h : IsName name) :
    ∃ front c, name.toList = front ++ [c] ∧ c ≠ '.' ∧ c ≠ '/' := by
  obtain ⟨c, last, dot⟩ := h.last
  obtain ⟨front, same⟩ := List.getLast?_eq_some_iff.mp last
  refine ⟨front, c, same, dot, ?_⟩
  rintro rfl
  exact h.noSlash (same ▸ List.mem_concat_self)

theorem withSuffix (h : IsName name) {suffix : String} (hs : IsName suffix) :
    IsName (name ++ "." ++ suffix) where
  noSlash := by
    rw [String.toList_append, String.toList_append, List.mem_append, List.mem_append]
    rintro ((inName | dot) | inSuffix)
    · exact h.noSlash inName
    · exact absurd dot (by decide)
    · exact hs.noSlash inSuffix
  last := by
    obtain ⟨c, last, dot⟩ := hs.last
    refine ⟨c, ?_, dot⟩
    rw [String.toList_append, List.getLast?_append, last]
    rfl

end IsName

/-! ## Paths into a directory -/

/-- What stands in a path before its last name: nothing, or up to a slash. -/
def IsFront (front : List Char) : Prop :=
  front = [] ∨ ∃ before, front = before ++ ['/']

/-- A path that goes through the names of a directory to one more name. -/
def IsIn (dir path name : String) : Prop :=
  ∃ front, path.toList = front ++ name.toList ∧ IsFront front ∧
    names front = names dir.toList ∧ (front.head? = some '/' ↔ isAbsolute dir = true)

section

variable {dir path name : String}

theorem isAbsolute_of_not_mem (h : '/' ∉ name.toList) : isAbsolute name = false := by
  unfold isAbsolute
  cases same : name.toList with
  | nil => rfl
  | cons c rest =>
    rw [same] at h
    rw [List.head?_cons, decide_eq_false_iff_not]
    rintro ⟨⟩
    exact h (List.mem_cons_self ..)

theorem isIn_join (dir : String) (h : IsName name) : IsIn dir (join dir name) name := by
  unfold join
  rw [isAbsolute_of_not_mem h.noSlash]
  simp only [Bool.false_eq_true, if_false]
  split
  · next empty =>
    rw [List.getLast?_eq_none_iff] at empty
    exact ⟨[], by rw [List.nil_append], .inl rfl, by rw [empty], by simp [isAbsolute, empty]⟩
  · next last =>
    obtain ⟨before, same⟩ := List.getLast?_eq_some_iff.mp last
    exact ⟨dir.toList, String.toList_append, .inr ⟨before, same⟩, rfl, by simp [isAbsolute]⟩
  · next c other last =>
    refine ⟨dir.toList ++ ['/'], ?_, .inr ⟨_, rfl⟩, names_concat _, ?_⟩
    · rw [String.toList_append, String.toList_append]
      rfl
    · rw [isAbsolute, List.head?_append, decide_eq_true_eq]
      cases same : dir.toList with
      | nil =>
        rw [same] at last
        cases last
      | cons d rest => rfl

theorem IsIn.isAbsolute_eq (h : IsIn dir path name) (hn : IsName name) :
    isAbsolute path = isAbsolute dir := by
  obtain ⟨front, same, -, -, head⟩ := h
  rw [Bool.eq_iff_iff, ← head, isAbsolute, same, decide_eq_true_eq]
  cases front with
  | nil =>
    rw [List.nil_append]
    have relative := isAbsolute_of_not_mem hn.noSlash
    rw [isAbsolute, decide_eq_false_iff_not] at relative
    exact ⟨fun h => absurd h relative, fun h => by cases h⟩
  | cons c rest => rfl

/-- The pieces of a path into a directory: the last is the name, and those before it go through
the names of the directory. -/
theorem IsIn.components_eq (h : IsIn dir path name) (hn : IsName name) :
    ∃ front, components path = front ++ [name] ∧
      (front.filter fun name => name ≠ "" && name ≠ ".") = names dir.toList := by
  obtain ⟨front, same, shape, through, -⟩ := h
  unfold components
  rcases shape with rfl | ⟨before, rfl⟩
  · refine ⟨[], ?_, through ▸ names_nil.symm⟩
    rw [same, List.nil_append, split_of_not_mem hn.noSlash]
    simp
  · refine ⟨(split before).map String.ofList, ?_, ?_⟩
    · rw [same, List.append_assoc, List.singleton_append, split_append,
        split_of_not_mem hn.noSlash]
      simp
    · rw [← through, names_concat]
      rfl

/-- A path into a directory does not end with a slash. -/
theorem IsIn.withoutLastSlashes_eq (h : IsIn dir path name) (hn : IsName name) :
    withoutLastSlashes path = path := by
  obtain ⟨front, same, -⟩ := h
  obtain ⟨others, c, last, -, slash⟩ := hn.last_ne_slash
  have reversed : path.toList.reverse = c :: (front ++ others).reverse := by
    rw [same, last, ← List.append_assoc, List.reverse_append]
    rfl
  unfold withoutLastSlashes
  rw [reversed, List.dropWhile_cons_of_neg (by simpa using slash)]
  dsimp only
  rw [← reversed, List.reverse_reverse, String.ofList_toList]

theorem IsIn.endsAfterName_eq (h : IsIn dir path name) (hn : IsName name) :
    endsAfterName path = false := by
  obtain ⟨front, same, -⟩ := h
  obtain ⟨others, c, last, -, slash⟩ := hn.last_ne_slash
  unfold endsAfterName
  rw [same, last, ← List.append_assoc, List.getLast?_concat]
  simp [slash]

/-! ## Suffixes -/

theorem trimReversed_cons {c : Char} (slash : c ≠ '/') (dot : c ≠ '.') (cs : List Char) :
    trimReversed (c :: cs) = c :: cs := by
  rw [trimReversed] <;> simp [slash, dot]

/-- Trimming does not change the names that a path goes through, nor where it starts. -/
theorem names_trimReversed (cs : List Char) :
    names (trimReversed cs).reverse = names cs.reverse ∧
      (trimReversed cs).getLast? = cs.getLast? := by
  have slash {rest : List Char} (some : rest = [] → False) (c : Char) :
      (c :: rest).getLast? = rest.getLast? := by
    cases rest with
    | nil => exact (some rfl).elim
    | cons d rest => exact List.getLast?_cons_cons
  fun_induction trimReversed cs with
  | case1 => exact ⟨rfl, rfl⟩
  | case2 rest some ih =>
    rw [List.reverse_cons, names_concat, slash some]
    exact ih
  | case3 => exact ⟨by decide, rfl⟩
  | case4 rest some ih =>
    have dot : names ('.' :: '/' :: rest).reverse = names ('/' :: rest).reverse := by
      have alone : names ['.'] = [] := by decide
      rw [List.reverse_cons, List.reverse_cons, List.append_assoc, List.singleton_append,
        names_append, alone, List.append_nil, names_concat]
    rw [slash (List.cons_ne_nil _ _) '.', dot]
    exact ih
  | case5 cs => exact ⟨rfl, rfl⟩

/-- A path into a directory falls into its last name and what is before it. -/
theorem IsIn.splitLast_eq (h : IsIn dir path name) (hn : IsName name) :
    ∃ front, splitLast path = (name.toList, front.reverse) ∧ names front = names dir.toList ∧
      (front.head? = some '/' ↔ isAbsolute dir = true) := by
  obtain ⟨front, same, shape, through, head⟩ := h
  refine ⟨front, ?_, through, head⟩
  obtain ⟨others, c, last, dot, slash⟩ := hn.last_ne_slash
  have trimmed : trimReversed path.toList.reverse = name.toList.reverse ++ front.reverse := by
    rw [same, List.reverse_append, last, List.reverse_append]
    exact trimReversed_cons slash dot _
  have inName : ∀ c ∈ name.toList.reverse, decide (c ≠ '/') = true := by
    intro c hc
    rw [decide_eq_true_eq]
    rintro rfl
    exact hn.noSlash (List.mem_reverse.mp hc)
  unfold splitLast
  simp only [trimmed]
  rw [List.takeWhile_append_of_pos inName, List.dropWhile_append_of_pos inName]
  rcases shape with rfl | ⟨before, rfl⟩ <;> simp

/-- **A path into a directory with a suffix goes into the same directory.** -/
theorem isIn_withSuffix (h : IsIn dir path name) (hn : IsName name) {suffix : String}
    (hs : IsName suffix) : IsIn dir (withSuffix path suffix) (name ++ "." ++ suffix) := by
  obtain ⟨front, split, through, head⟩ := h.splitLast_eq hn
  obtain ⟨empty, dot, dots⟩ := hn.ne
  have isName : fileName? path = some name := by
    unfold fileName?
    rw [split]
    simp [empty, dot, dots]
  have isParent : parent? path = some (String.ofList (trimReversed front.reverse).reverse) := by
    unfold parent?
    rw [split]
    simp [empty]
  obtain ⟨front', same, shape, through', head'⟩ :=
    isIn_join (String.ofList (trimReversed front.reverse).reverse) (hn.withSuffix hs)
  obtain ⟨trimmedNames, trimmedHead⟩ := names_trimReversed front.reverse
  refine ⟨front', ?_, shape, ?_, head'.trans ?_⟩
  · unfold withSuffix withFileName
    rw [isName, isParent]
    exact same
  · rw [through', String.toList_ofList, trimmedNames, List.reverse_reverse, through]
  · rw [isAbsolute, String.toList_ofList, decide_eq_true_eq, List.head?_reverse, trimmedHead,
      List.getLast?_reverse]
    exact head

end

end CapabilityPipeline.Path
