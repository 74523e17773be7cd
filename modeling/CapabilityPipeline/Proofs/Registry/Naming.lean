import CapabilityPipeline.Proofs.Program.StepGrammar
import CapabilityPipeline.Proofs.Registry.Widening
import CapabilityPipeline.Proofs.Text.LowerCase
import CapabilityPipeline.Proofs.Text.Trim

/-!
# Naming a node in a query

A query names a node if the id of the node, in lower case, is one of its keywords. Keywords are
single words of letters and digits, so that an id can be named only if it is such a word itself. For
any other id, as one with an underscore between two words, no query ever names the node, not even
one that spells the id out.

Results:

* `Names`, `Nameable`: a query names an id, and an id is a keyword by itself.
* `exists_names_iff`: the ids that some query names.
* `Snapshot.discover_naming`: adding the id of a node to a query raises the points of the node.
* `Snapshot.naming_lost_webTools`: not so for an id of two words.
-/

namespace CapabilityPipeline

open Text

/-! ## Keywords -/

/-- A long word of a text is some piece of letters and digits in lower case. -/
theorem mem_longWords {text word : String} : word ∈ longWords text ↔
    ∃ piece ∈ splitAt (fun c => !isAlphanumeric c) text.toList,
      2 ≤ piece.length ∧ String.ofList (lowerCase piece) = word := by
  simp [longWords, and_assoc]

/-! ## Ids -/

/-- The query names a node of this id. -/
def Names (query id : String) : Prop := (keywords query).contains (lowerCased id) = true

/-- An id that is a keyword by itself: a word of letters and digits, not too short, that is not
one of the words that every text has. -/
structure Nameable (id : String) : Prop where
  word : ∀ c ∈ id.toList, isAlphanumeric c = true
  long : 2 ≤ id.toList.length
  telling : lowerCased id ∉ stopwords

variable {id : String}

theorem Nameable.names (h : Nameable id) : Names id id := by
  refine contains_keywords.mpr ⟨mem_longWords.mpr ⟨id.toList, ?_, h.long, rfl⟩, h.telling⟩
  have whole : splitAt (fun c => !isAlphanumeric c) id.toList = [id.toList] := by
    apply splitAt_of_not_mem
    intro c hc
    rw [h.word c hc]
    rfl
  rw [whole]
  exact List.mem_singleton_self _

theorem isAlphanumeric_of_range (first last : Nat) (range : (first, last) ∈ alphanumericRanges)
    {c : Char} (low : first ≤ c.toNat) (high : c.toNat ≤ last) : isAlphanumeric c = true := by
  unfold isAlphanumeric inRanges
  refine List.any_eq_true.mpr ⟨_, range, ?_⟩
  simp [low, high]

theorem isAlphanumeric_of_mem_joiners {c : Char} (h : c ∈ joiners) : isAlphanumeric c = false := by
  simp only [joiners, List.mem_cons, List.not_mem_nil, or_false] at h
  rcases h with rfl | rfl | rfl <;> decide +kernel

/-- A character of an id is a letter or a digit, or it joins words. -/
theorem mem_joiners_of_continuesIdentifier {c : Char} (h : continuesIdentifier c = true) :
    isAlphanumeric c = true ∨ c ∈ joiners := by
  simp only [continuesIdentifier, continuesName, startsName, Bool.or_eq_true, Bool.and_eq_true,
    decide_eq_true_eq, Char.le_def, UInt32.le_iff_toNat_le] at h
  rcases h with ((((⟨low, high⟩ | ⟨low, high⟩) | rfl) | ⟨low, high⟩) | rfl) | rfl
  · exact .inl (isAlphanumeric_of_range 0x61 0x7A (by decide) low high)
  · exact .inl (isAlphanumeric_of_range 0x41 0x5A (by decide) low high)
  · exact .inr (by decide)
  · exact .inl (isAlphanumeric_of_range 0x30 0x39 (by decide) low high)
  · exact .inr (by decide)
  · exact .inr (by decide)

/-- A query names only ids that are keywords by themselves. -/
theorem nameable_of_names (valid : isIdentifier id.toList = true) {query : String}
    (h : Names query id) : Nameable id := by
  obtain ⟨long, telling⟩ := contains_keywords.mp h
  obtain ⟨piece, isPiece, two, same⟩ := mem_longWords.mp long
  have lower : lowerCase piece = lowerCase id.toList := String.ofList_injective same
  have continues := continuesIdentifier_of_isIdentifier valid
  refine ⟨fun c hc => ?_, ?_, telling⟩
  · -- a joiner of the id would be one of the keyword, which has none
    refine (mem_joiners_of_continuesIdentifier (continues c hc)).resolve_right fun joiner => ?_
    rw [← mem_lowerCase_iff joiner, ← lower, mem_lowerCase_iff joiner] at hc
    have letter := not_separates_of_mem_splitAt isPiece c hc
    rw [isAlphanumeric_of_mem_joiners joiner] at letter
    cases letter
  · have noDotted : 'İ' ∉ id.toList := fun hc => absurd (continues _ hc) (by decide)
    have size := congrArg List.length lower
    have longer := length_le_lowerCaseAfter [] piece
    rw [lowerCase, lowerCase, length_lowerCaseAfter noDotted] at size
    omega

/-- **The ids that some query names** are those that are keywords by themselves. -/
theorem exists_names_iff (valid : isIdentifier id.toList = true) :
    (∃ query, Names query id) ↔ Nameable id :=
  ⟨fun ⟨_, h⟩ => nameable_of_names valid h, fun h => ⟨id, h.names⟩⟩

/-! ## Points -/

/-- A wider query that names a node which the other does not name gives the node a point more. -/
theorem Node.points_add_le_of_named {words words' : NameSet} (wider : words'.Wider words)
    {n : Node} (unnamed : words.contains (lowerCased n.id) ≠ true)
    (named : words'.contains (lowerCased n.id) = true) :
    n.points words + nodeNameScore ≤ n.points words' := by
  unfold points
  rw [if_neg unnamed, if_pos named, Nat.add_zero]
  exact Nat.add_le_add_right (n.sum_counting_le_of_wider wider) _

namespace Snapshot

variable {s : Snapshot} {query : String} {m : NodeMatch} {limit limit' : Nat}

/-- **Naming a node in a query raises its points.** What a query finds of a node is found again with
the id of the node behind the query, and with as many points or more. It has one point more, which
is two half points, if the id is a keyword by itself and the query did not name the node already. No
query names a node of any other id that is an identifier. -/
theorem discover_naming (unlimited : s.nodes.size ≤ limit') (mem : m ∈ s.discover query limit) :
    (∃ m' ∈ s.discover (query ++ " " ++ m.node) limit', m'.node = m.node ∧ m.score ≤ m'.score ∧
      (Nameable m.node → ¬ Names query m.node → m.score + nodeNameScore ≤ m'.score) ∧
      ∃ id n, s.nodes.get? id = some n ∧ n.MatchedAs (keywords query) m ∧
        n.MatchedAs (keywords (query ++ " " ++ m.node)) m') ∧
    (isIdentifier m.node.toList = true →
      ((∃ query', Names query' m.node) ↔ Nameable m.node)) := by
  refine ⟨?_, exists_names_iff⟩
  obtain ⟨id, n, listed, capable, counts, rfl⟩ := exists_of_mem_discover mem
  have wider := (wider_append query n.id).1
  refine ⟨n.matched (keywords (query ++ " " ++ n.id)), ?_, rfl, n.points_le_of_wider wider, ?_,
    id, n, listed, n.matchedAs_matched _, n.matchedAs_matched _⟩
  · exact mem_discover unlimited listed capable (Node.counts_of_wider wider counts)
  · intro nameable unnamed
    exact Node.points_add_le_of_named wider unnamed
      (contains_keywords_append.mpr (.inr nameable.names))

set_option maxRecDepth 10000 in
/-- Who looks for letters finds the desk, with one point more after naming it. -/
theorem discover_naming_desk : postOffice.nodes.size ≤ 3 ∧ isIdentifier "desk".toList = true ∧
    ∃ m ∈ postOffice.discover "letter" 3, m.node = "desk" ∧
      (∃ m' ∈ postOffice.discover ("letter" ++ " " ++ "desk") 3, m'.node = "desk" ∧
        m.score + nodeNameScore ≤ m'.score) ∧
      ((∃ query', Names query' m.node) ↔ Nameable m.node) := by
  have few : postOffice.nodes.size ≤ 3 := by decide
  have listed : ((postOffice.nodes.get? "desk").any fun n =>
      !n.isAgent && n.counts (keywords "letter") && n.id = "desk") = true := by decide +kernel
  obtain ⟨n, listed, found⟩ := (Option.any_eq_true _ _).mp listed
  simp only [Bool.and_eq_true, Bool.not_eq_true', decide_eq_true_eq] at found
  obtain ⟨⟨capable, counts⟩, desk⟩ := found
  have mem := mem_discover few listed capable counts
  have valid : isIdentifier "desk".toList = true := by decide
  have nameable : Nameable "desk" :=
    ⟨List.all_eq_true.mp (by decide +kernel), by decide, by decide +kernel⟩
  have unnamed : ¬ Names "letter" "desk" := by
    unfold Names
    decide +kernel
  obtain ⟨⟨m', mem', same, -, more, -⟩, named⟩ := discover_naming few mem
  change m'.node = n.id at same
  change m' ∈ postOffice.discover ("letter" ++ " " ++ n.id) 3 at mem'
  change Nameable n.id → ¬ Names "letter" n.id → _ at more
  rw [desk] at same mem' more
  refine ⟨few, valid, _, mem, desk, ⟨m', mem', same, more nameable unnamed⟩, named ?_⟩
  change isIdentifier n.id.toList = true
  rw [desk]
  exact valid

/-- Tools for the web, under an id of two words. -/
def toolbox : Snapshot := .ofNodes [(Node.ofId "web_tools").withAction "now" (.code "Current time")]

/-- **Naming a node need not raise its points.** A query that spells out an id of two words does not
name the node. -/
theorem naming_lost_webTools : isIdentifier "web_tools".toList = true ∧
    ¬ Names "current time" "web_tools" ∧
    ∃ m ∈ toolbox.discover "current time" 1, m.node = "web_tools" ∧
      ∀ m' ∈ toolbox.discover ("current time" ++ " " ++ "web_tools") 1,
        ¬ m.score + nodeNameScore ≤ m'.score := by
  have tools : ((toolbox.nodes.get? "web_tools").any fun n => !n.isAgent &&
      n.counts (keywords "current time") && n.id = "web_tools" &&
      n.points (keywords "current time") = 4) = true := by decide +kernel
  have after : ∀ e ∈ toolbox.nodes.entries,
      e.2.points (keywords ("current time" ++ " " ++ "web_tools")) = 4 := by decide +kernel
  have unnamed : ¬ Names "current time" "web_tools" := by
    unfold Names
    decide +kernel
  obtain ⟨n, listed, found⟩ := (Option.any_eq_true _ _).mp tools
  simp only [Bool.and_eq_true, Bool.not_eq_true', decide_eq_true_eq] at found
  obtain ⟨⟨⟨capable, counts⟩, named⟩, before⟩ := found
  have few : toolbox.nodes.size ≤ 1 := by decide
  have mem := mem_discover few listed capable counts
  refine ⟨by decide, unnamed, _, mem, named, fun m' mem' raised => ?_⟩
  obtain ⟨id, n', listed', -, -, rfl⟩ := exists_of_mem_discover mem'
  have same := after _ (NameMap.mem_entries.mpr listed')
  change n.points (keywords "current time") + 2 ≤
    n'.points (keywords ("current time" ++ " " ++ "web_tools")) at raised
  rw [before, same] at raised
  omega

end Snapshot

end CapabilityPipeline
