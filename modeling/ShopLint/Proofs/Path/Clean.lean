import ShopLint.Proofs.Placement
import ShopLint.Proofs.Text.Lines
import Mathlib.Data.List.Infix

/-!
Clean absolute paths. Such a path is the names on its way from the top and nothing else: going up takes
the last of them away, and joining adds some at the end.
-/

namespace ShopLint.Path

/-- The names on the way of a path. -/
def names (path : String) : List String := (segments path).filter (· ≠ "")

/-- The directories on the way by the given names, from the last to the top. -/
def upward (ns : List String) : List String := (ns.inits.map (below "/")).reverse

/-- The directories above a path, from the one that holds it to the top. The top holds itself. -/
def above (path : String) : List String := upward (names path).dropLast

@[simp] theorem upward_nil : upward [] = ["/"] := rfl

@[simp] theorem upward_concat (ns : List String) (name : String) :
    upward (ns ++ [name]) = below "/" (ns ++ [name]) :: upward ns := by
  simp [upward, List.inits_append]

theorem mem_upward {ns : List String} {dir : String} :
    dir ∈ upward ns ↔ ∃ front, front <+: ns ∧ dir = below "/" front := by
  simp [upward, eq_comm]

@[simp] theorem below_below (dir : String) (ns more : List String) :
    below (below dir ns) more = below dir (ns ++ more) :=
  List.foldl_append.symm

section

variable {ns : List String} (proper : ∀ n ∈ ns, IsProper n)

include proper

theorem cleanSegments_append (rooted : Bool) (done rest : List String) :
    cleanSegments rooted done (ns ++ rest) = cleanSegments rooted (ns.reverse ++ done) rest := by
  induction ns generalizing done with
  | nil => rfl
  | cons n ns ih =>
    obtain ⟨⟨⟨nonempty, _⟩, notHere, notUp⟩, others⟩ := List.forall_mem_cons.1 proper
    simp only [List.cons_append, cleanSegments, nonempty, notHere, notUp, decide_false, Bool.or_self,
      Bool.false_eq_true, if_false, ih others]
    simp

theorem segments_top_below (nonempty : ns ≠ []) : segments (below "/" ns) = "" :: ns := by
  rw [segments_below "/" nonempty proper]
  rfl

@[simp] theorem names_below : names (below "/" ns) = ns := by
  by_cases top : ns = []
  · subst top
    decide
  · have named : ns.filter (· ≠ "") = ns :=
      List.filter_eq_self.2 fun n mem => decide_eq_true (proper n mem).1.1
    rw [names, segments_top_below proper top, List.filter_cons_of_neg (by simp), named]

/-- A path has no more names than characters. -/
theorem length_le_length_below : ns.length ≤ (below "/" ns).length := by
  by_cases top : ns = []
  · simp [top]
  · have slashes : ns.length + 1 = (below "/" ns).toList.count '/' + 1 := by
      rw [← Chars.length_splitOn, ← List.length_cons (a := ""), ← segments_top_below proper top, segments,
        Text.splitOn, List.length_map]
    have all := (below "/" ns).toList.count_le_length (a := '/')
    rw [String.length_toList] at all
    omega

/-- Cleaning what goes on after a clean path starts with the names of that. -/
theorem cleanSegments_below (rest : List String) :
    cleanSegments true [] (segments (below "/" ns) ++ rest) = cleanSegments true ns.reverse rest := by
  by_cases top : ns = []
  · subst top
    rfl
  · rw [segments_top_below proper top]
    show cleanSegments true [] (ns ++ rest) = _
    rw [cleanSegments_append proper, List.append_nil]

theorem isAbsolute_top_below : isAbsolute (below "/" ns) := by
  by_cases top : ns = []
  · subst top
    decide
  · rw [isAbsolute_below (by decide) top proper]
    decide

theorem top_append_join : "/" ++ Text.join "/" ns = below "/" ns := by
  by_cases top : ns = []
  · subst top
    rfl
  · rw [below_eq_join "/" top proper]
    rfl

theorem clean_below : clean (below "/" ns) = below "/" ns := by
  have cleaned := cleanSegments_below proper []
  rw [List.append_nil, cleanSegments, List.reverse_reverse] at cleaned
  rw [clean, if_pos (isAbsolute_top_below proper), cleaned, top_append_join proper]

/-- Joined names come after those of the path. -/
theorem join_below {more : List String} (nonempty : more ≠ []) (proper' : ∀ n ∈ more, IsProper n) :
    join (below "/" ns :: more) = below "/" (ns ++ more) := by
  have absolute := isAbsolute_top_below proper
  have given : ∀ n ∈ below "/" ns :: more, n ≠ "" := by
    refine List.forall_mem_cons.2 ⟨fun eq => ?_, fun n mem => (proper' n mem).1.1⟩
    rw [eq] at absolute
    exact absurd absolute (by decide)
  have kept : (below "/" ns :: more).filter (· ≠ "") = below "/" ns :: more :=
    List.filter_eq_self.2 fun n mem => decide_eq_true (given n mem)
  obtain ⟨first, others, rfl⟩ := List.exists_cons_of_ne_nil nonempty
  have joined : Text.join "/" (below "/" ns :: first :: others) =
      below "/" ns ++ "/" ++ Text.join "/" (first :: others) := rfl
  have absolute' : isAbsolute (below "/" ns ++ "/" ++ Text.join "/" (first :: others)) := by
    obtain ⟨tail, eq⟩ := List.isPrefixOf_iff_prefix.1 absolute
    simp [isAbsolute, Text.startsWith, ← eq]
  rw [join, kept]
  show clean (Text.join "/" (below "/" ns :: first :: others)) = _
  rw [joined, clean, if_pos absolute', segments_append, segments_join nonempty proper',
    cleanSegments_below proper, ← List.append_nil (first :: others), cleanSegments_append proper',
    List.append_nil, cleanSegments, List.reverse_append, List.reverse_reverse, List.reverse_reverse]
  exact top_append_join (List.forall_mem_append.2 ⟨proper, proper'⟩)

/-- Going up takes the last name away; from the top it leads nowhere else. -/
theorem dir_below : dir (below "/" ns) = below "/" ns.dropLast := by
  by_cases top : ns = []
  · subst top
    decide
  have upper : ∀ n ∈ ns.dropLast, IsProper n := fun n mem => proper n (List.dropLast_subset ns mem)
  have last := (proper _ (List.getLast_mem top)).1
  have cutAt : Text.cutLast "/" (below "/" ns) =
      some (stem (below "/" ns.dropLast), ns.getLast top) := by
    have lists : (stem (below "/" ns.dropLast) ++ "/" ++ ns.getLast top).toList =
        (stem (below "/" ns.dropLast)).toList ++ '/' :: (ns.getLast top).toList := by simp
    rw [below_eq "/" top]
    simp only [Text.cutLast, lists, show "/".toList = ['/'] from rfl,
      Chars.cutLast_singleton_append last.2, Option.map_some, String.ofList_toList]
  rw [dir, cutAt]
  show clean (stem (below "/" ns.dropLast) ++ "/") = _
  by_cases first : ns.dropLast = []
  · rw [first]
    decide
  have notTop : below "/" ns.dropLast ≠ "/" := by
    intro eq
    have none := names_below upper
    rw [eq] at none
    exact first (none.symm.trans (by decide))
  have absolute := isAbsolute_top_below upper
  have absolute' : isAbsolute (below "/" ns.dropLast ++ "/") := by
    obtain ⟨tail, eq⟩ := List.isPrefixOf_iff_prefix.1 absolute
    simp [isAbsolute, Text.startsWith, ← eq]
  have segmented : segments (below "/" ns.dropLast ++ "/") = segments (below "/" ns.dropLast) ++ [""] := by
    have split := segments_append (below "/" ns.dropLast) ""
    rwa [String.append_empty] at split
  rw [stem, if_neg notTop, clean, if_pos absolute', segmented, cleanSegments_below upper]
  show "/" ++ Text.join "/" ns.dropLast.reverse.reverse = _
  rw [List.reverse_reverse, top_append_join upper]

/-- What the path of a directory in a directory is called by itself. -/
theorem base_concat {name : String} (named : IsProper name) : base (below "/" (ns ++ [name])) = name := by
  have proper' : ∀ n ∈ ns ++ [name], IsProper n :=
    List.forall_mem_append.2 ⟨proper, List.forall_mem_singleton.2 named⟩
  rw [base_below "/" (by simp) proper', List.getLast_concat]

end

/-- Cleaning an absolute path leaves proper names only. -/
theorem isProper_of_mem_cleanSegments {done segments : List String} (passed : ∀ n ∈ done, IsProper n)
    (pieces : ∀ s ∈ segments, '/' ∉ s.toList) : ∀ n ∈ cleanSegments true done segments, IsProper n := by
  induction segments generalizing done with
  | nil => exact fun n mem => passed n (List.mem_reverse.1 mem)
  | cons s segments ih =>
    obtain ⟨piece, pieces⟩ := List.forall_mem_cons.1 pieces
    simp only [cleanSegments]
    split
    · exact ih passed pieces
    next named =>
      simp only [Bool.or_eq_true, decide_eq_true_eq, not_or] at named
      split
      · cases done with
        | nil => exact ih passed pieces
        | cons last others =>
          obtain ⟨lastProper, others'⟩ := List.forall_mem_cons.1 passed
          simp only [if_neg lastProper.2.2]
          exact ih others' pieces
      next down => exact ih (List.forall_mem_cons.2 ⟨⟨⟨named.1, piece⟩, named.2, down⟩, passed⟩) pieces

/-- A clean absolute path is the names on its way. -/
theorem exists_names {path : String} (absolute : isAbsolute path) (cleaned : clean path = path) :
    ∃ ns, (∀ n ∈ ns, IsProper n) ∧ path = below "/" ns := by
  have pieces : ∀ s ∈ segments path, '/' ∉ s.toList := by
    intro s mem
    obtain ⟨piece, isPiece, rfl⟩ := List.mem_map.1 mem
    rw [String.toList_ofList]
    exact Chars.not_mem_of_mem_splitOn isPiece
  have proper := @isProper_of_mem_cleanSegments [] (segments path) (by simp) pieces
  refine ⟨_, proper, ?_⟩
  rw [← top_append_join proper]
  rw [clean, if_pos absolute] at cleaned
  exact cleaned.symm

end ShopLint.Path
