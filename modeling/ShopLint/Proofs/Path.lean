import ShopLint.Collection.Walk
import ShopLint.Proofs.Text.Search
import Mathlib.Data.List.TakeWhile

/-!
Paths taken apart: the segments of a path that goes on below a directory, its last segment, and the
extension of that.
-/

namespace ShopLint

namespace Chars

theorem cut_singleton_append {c : Char} {before : List Char} (h : c ∉ before) (rest : List Char) :
    cut [c] (before ++ c :: rest) = some (before, rest) := by
  induction before with
  | nil => simp [cut]
  | cons d ds ih =>
    have ne : c ≠ d := fun eq => h (eq ▸ List.mem_cons_self)
    have later := ih fun mem => h (List.mem_cons_of_mem _ mem)
    simp [cut, ne, later]

theorem cut_singleton_eq_none {c : Char} {text : List Char} (h : c ∉ text) : cut [c] text = none :=
  cut_eq_none_iff.2 fun inside => h (inside.subset List.mem_cons_self)

theorem cutLast_singleton_append {c : Char} {rest : List Char} (h : c ∉ rest) (before : List Char) :
    cutLast [c] (before ++ c :: rest) = some (before, rest) := by
  have reversed : cut [c] ((before ++ c :: rest).reverse) = some (rest.reverse, before.reverse) := by
    rw [List.reverse_append, List.reverse_cons, List.append_assoc, List.singleton_append]
    exact cut_singleton_append (fun mem => h (List.mem_reverse.1 mem)) before.reverse
  simp only [cutLast, List.reverse_singleton, reversed, Option.map_some, List.reverse_reverse]

theorem cutLast_singleton_eq_none {c : Char} {text : List Char} (h : c ∉ text) :
    cutLast [c] text = none := by
  have reversed : cut [c] text.reverse = none := cut_singleton_eq_none (by simpa using h)
  simp [cutLast, reversed]

theorem splitOn_append (sep : Char) (before rest : List Char) :
    splitOn sep (before ++ sep :: rest) = splitOn sep before ++ splitOn sep rest := by
  induction before with
  | nil => simp [splitOn]
  | cons c cs ih =>
    by_cases h : c = sep
    · simp [splitOn, h, ih]
    · obtain ⟨piece, others, pieces, extended⟩ := splitOn_cons_of_ne h cs
      obtain ⟨piece', others', pieces', extended'⟩ := splitOn_cons_of_ne h (cs ++ sep :: rest)
      rw [pieces', pieces, List.cons_append, List.cons.injEq] at ih
      rw [List.cons_append, extended', extended, ih.1, ih.2, List.cons_append]

theorem splitOn_of_not_mem {sep : Char} {text : List Char} (h : sep ∉ text) :
    splitOn sep text = [text] := by
  induction text with
  | nil => rfl
  | cons c cs ih =>
    have ne : c ≠ sep := fun eq => h (eq ▸ List.mem_cons_self)
    have later := ih fun mem => h (List.mem_cons_of_mem _ mem)
    simp [splitOn, ne, later]

/-- A first piece, and each further one after a separator. -/
theorem intercalate_cons (sep : Char) (piece : List Char) (pieces : List (List Char)) :
    [sep].intercalate (piece :: pieces) = piece ++ pieces.flatMap (sep :: ·) := by
  induction pieces generalizing piece with
  | nil => simp
  | cons next more ih =>
    rw [List.intercalate_cons_cons, ih next, List.flatMap_cons, List.append_assoc, List.singleton_append,
      List.cons_append]

/-- Pieces put together with separators come apart again; of no pieces there is one, which is empty. -/
theorem splitOn_intercalate {sep : Char} {pieces : List (List Char)} (h : ∀ piece ∈ pieces, sep ∉ piece) :
    splitOn sep ([sep].intercalate pieces) = if pieces = [] then [[]] else pieces := by
  match pieces with
  | [] => rfl
  | [piece] =>
    rw [List.intercalate_singleton, splitOn_of_not_mem (h piece List.mem_cons_self)]
    rfl
  | piece :: next :: more =>
    have later := splitOn_intercalate fun q mem => h q (List.mem_cons_of_mem piece mem)
    rw [List.intercalate_cons_cons, List.append_assoc, List.singleton_append, splitOn_append, later,
      splitOn_of_not_mem (h piece List.mem_cons_self)]
    rfl

theorem dropRightWhile_of_forall {p : Char → Bool} {text : List Char} (h : ∀ c ∈ text, p c = false) :
    dropRightWhile p text = text := by
  have kept : text.reverse.dropWhile p = text.reverse := by
    cases reversed : text.reverse with
    | nil => rfl
    | cons c cs =>
      have mem : c ∈ text := List.mem_reverse.1 (reversed ▸ List.mem_cons_self)
      exact List.dropWhile_cons_of_neg (by simp [h c mem])
  rw [dropRightWhile, kept, List.reverse_reverse]

theorem forall_of_trimWhile_eq_nil {p : Char → Bool} {text : List Char}
    (h : trimWhile p text = []) : ∀ c ∈ text, p c = true := by
  have inner : ∀ c ∈ text.dropWhile p, p c = true := by
    simp only [trimWhile, dropRightWhile, List.reverse_eq_nil_iff, List.dropWhile_eq_nil_iff,
      List.mem_reverse] at h
    exact h
  cases rest : text.dropWhile p with
  | nil => exact List.dropWhile_eq_nil_iff.1 rest
  | cons c cs =>
    have stops := List.head_dropWhile_not p (by rw [rest]; exact List.cons_ne_nil c cs)
    have holds := inner c (by rw [rest]; exact List.mem_cons_self)
    simp only [rest, List.head_cons] at stops
    simp [holds] at stops

end Chars

namespace Path

/-- A segment by itself: not empty and without a slash. -/
def IsName (name : String) : Prop := name ≠ "" ∧ '/' ∉ name.toList

instance (name : String) : Decidable (IsName name) := inferInstanceAs (Decidable (_ ∧ _))

theorem segments_append (dir rest : String) :
    segments (dir ++ "/" ++ rest) = segments dir ++ segments rest := by
  have lists : (dir ++ "/" ++ rest).toList = dir.toList ++ '/' :: rest.toList := by simp
  simp only [segments, Text.splitOn, lists, Chars.splitOn_append, List.map_append]

theorem segments_of_isName {name : String} (h : '/' ∉ name.toList) : segments name = [name] := by
  simp [segments, Text.splitOn, Chars.splitOn_of_not_mem h]

theorem trimEndChar_of_isName {dir name : String} (h : IsName name) :
    Text.trimEndChar '/' (dir ++ "/" ++ name) = dir ++ "/" ++ name := by
  have lists : (dir ++ "/" ++ name).toList = (dir.toList ++ ['/']) ++ name.toList := by simp
  have nonempty : name.toList ≠ [] := fun eq => h.1 (String.toList_eq_nil_iff.1 eq)
  obtain ⟨front, last, eq⟩ := List.eq_nil_or_concat name.toList |>.resolve_left nonempty
  have notSlash : last ≠ '/' := by
    intro isSlash
    apply h.2
    rw [eq, isSlash]
    simp
  have kept : Chars.dropRightWhile (· = '/') (dir ++ "/" ++ name).toList =
      (dir ++ "/" ++ name).toList := by
    rw [lists, eq]
    simp [Chars.dropRightWhile, notSlash]
  rw [Text.trimEndChar, kept, String.ofList_toList]

/-- The last segment of a path that goes on below a directory. -/
theorem base_append {dir name : String} (h : IsName name) : base (dir ++ "/" ++ name) = name := by
  have lists : (dir ++ "/" ++ name).toList = dir.toList ++ '/' :: name.toList := by simp
  have nonempty : dir ++ "/" ++ name ≠ "" := by
    intro eq
    have none := congrArg String.toList eq
    rw [lists] at none
    simp at none
  have cutAt : Text.cutLast "/" (dir ++ "/" ++ name) = some (dir, name) := by
    simp only [Text.cutLast, lists, show "/".toList = ['/'] from rfl,
      Chars.cutLast_singleton_append h.2, Option.map_some, String.ofList_toList]
  simp only [base, if_neg nonempty, trimEndChar_of_isName h, cutAt]

/-- A single segment is its own last one. -/
theorem base_of_isName {name : String} (h : IsName name) : base name = name := by
  obtain ⟨nonempty, noSlash⟩ := h
  have kept : Text.trimEndChar '/' name = name := by
    rw [Text.trimEndChar, Chars.dropRightWhile_of_forall, String.ofList_toList]
    intro c mem
    simp only [decide_eq_false_iff_not]
    exact fun eq => noSlash (eq ▸ mem)
  have uncut : Text.cutLast "/" name = none := by
    simp only [Text.cutLast, show "/".toList = ['/'] from rfl, Option.map_eq_none_iff]
    exact Chars.cutLast_singleton_eq_none noSlash
  simp only [base, if_neg nonempty, kept, uncut]

/-- A blank path has no extension. -/
theorem ext_base_of_blank {path : String} (blank : Text.trim path = "") :
    Text.dropStart "." (ext (base path)) = "" := by
  have spaces : ∀ c ∈ path.toList, isBlank c = true := by
    apply Chars.forall_of_trimWhile_eq_nil
    simpa [Text.trim] using congrArg String.toList blank
  have noSlash : '/' ∉ path.toList := fun mem => absurd (spaces _ mem) (by decide)
  have noDot : '.' ∉ path.toList := fun mem => absurd (spaces _ mem) (by decide)
  by_cases empty : path = ""
  · subst empty
    decide
  · have undotted : Text.cutLast "." path = none := by
      simp only [Text.cutLast, show ".".toList = ['.'] from rfl, Option.map_eq_none_iff]
      exact Chars.cutLast_singleton_eq_none noDot
    rw [base_of_isName ⟨empty, noSlash⟩]
    simp only [ext, segments_of_isName noSlash, List.getLast?_singleton, Option.getD_some, undotted]
    decide

end Path

end ShopLint
