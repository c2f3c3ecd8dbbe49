import ShopLint.Proofs.Fingerprint
import ShopLint.Proofs.Text.Location
import ShopLint.Proofs.Text.Trim
import Mathlib.Data.List.Forall2

/-!
What a fingerprint depends on: the trimmed lines of its range and nothing else. Joining a carriage return
with the newline after it takes only white space off the end of a line, so these are the trimmed lines
of the text itself. Edits that leave them alone leave the fingerprint alone.
-/

namespace ShopLint

/-- The items with the numbers of a range, as far as there are any. -/
theorem filterMap_getElem?_range' {α : Type} (items : List α) (start count : Nat) :
    (List.range' start count).filterMap (items[·]?) = (items.drop start).take count := by
  induction count generalizing start with
  | zero => rfl
  | succ count ih =>
    rw [List.range'_succ, List.filterMap_cons, ih]
    by_cases inside : start < items.length
    · rw [List.drop_eq_getElem_cons inside, List.getElem?_eq_getElem inside, List.take_succ_cons]
    · have beyond : items.length ≤ start := Nat.le_of_not_lt inside
      simp [List.getElem?_eq_none beyond, List.drop_eq_nil_of_le beyond,
        List.drop_eq_nil_of_le (Nat.le_succ_of_le beyond)]

namespace Fingerprint

/-- The line has the given code on it, between white space. -/
def Pads (code line : List Char) : Prop :=
  ∃ lead tail, line = lead ++ (code ++ tail) ∧ (∀ c ∈ lead, isBlank c) ∧ ∀ c ∈ tail, isBlank c

/-- Two texts with the same code on their lines, which are indented differently. -/
def Reindented (a b : List Char) : Prop :=
  List.Forall₂ (fun line line' => ∃ code, Pads code line ∧ Pads code line') (linesOf a) (linesOf b)

/-- The lines of a text from `first` to `last` that there are, trimmed. A range that ends before it starts
is its first line. -/
def selected (content : List Char) (first last : Int) : List (List Char) :=
  (List.range' (first.toNat - 1) ((max first last - first).toNat + 1)).filterMap fun i =>
    (linesOf content)[i]?.map (Chars.trimWhile isBlank)

/-- The fingerprint of a range survives every edit that leaves its trimmed lines alone. -/
structure SurvivesEdits (content : List Char) (line endLine : Int) : Prop where
  /-- Nothing but the trimmed lines of the range matters, wherever they stand. -/
  selected_only : ∀ other line' endLine', 1 ≤ line' →
    selected other line' endLine' = selected content line endLine →
    hash other line' endLine' = hash content line endLine
  reindented : ∀ other, Reindented content other → hash other line endLine = hash content line endLine
  lineEndings : ∀ other, SameButEndings content other → hash other line endLine = hash content line endLine
  /-- The other lines may be changed, or be more or fewer, as long as those with the numbers of the range
  stay as they are. -/
  outside : ∀ other, (∀ n : Nat, line ≤ n → n ≤ max line endLine →
    (linesOf other)[n - 1]? = (linesOf content)[n - 1]?) → hash other line endLine = hash content line endLine
  /-- The range may move down below other lines. -/
  moved : ∀ before : List Char, hash (before ++ '\n' :: content) (line + (linesOf before).length)
    (endLine + (linesOf before).length) = hash content line endLine
  empty_iff : hash content line endLine = "" ↔ ((linesOf content).length : Int) < line

/-- White space at the end of lines apart, line endings make no difference. -/
theorem SameButEndings.lines_eq {a b : List Char} (h : SameButEndings a b) :
    (linesOf a).map (Chars.dropRightWhile isBlank) = (linesOf b).map (Chars.dropRightWhile isBlank) := by
  have returned : Chars.dropRightWhile isBlank ['\r'] = Chars.dropRightWhile isBlank [] := by decide
  induction h with
  | nil => rfl
  | @char c a b _ ih =>
    by_cases newline : c = '\n'
    · subst newline
      exact congrArg (_ :: ·) ih
    · obtain ⟨line, rest, lines, extended⟩ := Chars.splitOn_cons_of_ne newline a
      obtain ⟨line', rest', lines', extended'⟩ := Chars.splitOn_cons_of_ne newline b
      simp only [linesOf, lines, lines', extended, extended', List.map_cons, List.cons.injEq] at ih ⊢
      exact ⟨by rw [← Chars.dropRightWhile_cons, ih.1, Chars.dropRightWhile_cons], ih.2⟩
  | @returned a b _ ih =>
    have lines : linesOf ('\r' :: '\n' :: b) = ['\r'] :: linesOf b := rfl
    rw [lines, List.map_cons, returned, ← ih]
    rfl
  | @plain a b _ ih =>
    have lines : linesOf ('\r' :: '\n' :: a) = ['\r'] :: linesOf a := rfl
    rw [lines, List.map_cons, returned, ih]
    rfl

theorem SameButEndings.trimmed_eq {a b : List Char} (h : SameButEndings a b) :
    (linesOf a).map (Chars.trimWhile isBlank) = (linesOf b).map (Chars.trimWhile isBlank) := by
  have trimmed := congrArg (List.map (Chars.trimWhile isBlank)) h.lines_eq
  simpa only [List.map_map, Function.comp_def, Chars.trimWhile_dropRightWhile] using trimmed

theorem trimmed_lines (content : List Char) :
    (lines content).map (Chars.trimWhile isBlank) = (linesOf content).map (Chars.trimWhile isBlank) :=
  (sameButEndings_joined content).trimmed_eq.symm

/-- Two lines have the same code on them just if they are the same when trimmed. -/
theorem exists_pads_iff {line line' : List Char} : (∃ code, Pads code line ∧ Pads code line') ↔
    Chars.trimWhile isBlank line = Chars.trimWhile isBlank line' := by
  have trimmed {code line : List Char} (h : Pads code line) :
      Chars.trimWhile isBlank line = Chars.trimWhile isBlank code := by
    obtain ⟨lead, tail, rfl, before, after⟩ := h
    rw [Chars.trimWhile_append_left before, Chars.trimWhile_append_right after]
  constructor
  · rintro ⟨code, pads, pads'⟩
    rw [trimmed pads, trimmed pads']
  · intro same
    refine ⟨_, Chars.exists_trimWhile isBlank line, ?_⟩
    rw [same]
    exact Chars.exists_trimWhile isBlank line'

theorem reindented_iff {a b : List Char} : Reindented a b ↔
    (linesOf a).map (Chars.trimWhile isBlank) = (linesOf b).map (Chars.trimWhile isBlank) := by
  simp only [Reindented, exists_pads_iff]
  rw [← @List.forall₂_eq_eq_eq (List Char), List.forall₂_map_left_iff, List.forall₂_map_right_iff]

/-- The selected lines are a stretch of all lines. -/
theorem selected_eq (content : List Char) (first last : Int) :
    selected content first last = (((linesOf content).map (Chars.trimWhile isBlank)).drop (first.toNat - 1)).take
      ((max first last - first).toNat + 1) := by
  rw [selected, ← filterMap_getElem?_range']
  simp only [List.getElem?_map]

section

variable {content : List Char} {line : Int} (endLine : Int) (positive : 1 ≤ line)

include positive

theorem selected_eq_nil_iff :
    selected content line endLine = [] ↔ ((linesOf content).length : Int) < line := by
  rw [selected_eq, List.take_eq_nil_iff, List.drop_eq_nil_iff, List.length_map]
  omega

theorem snippet_eq : snippet content line endLine =
    if selected content line endLine = [] then none else some (selected content line endLine) := by
  have refused : (line < 1 || ((linesOf content).length : Int) < line) = true ↔
      selected content line endLine = [] := by
    rw [selected_eq_nil_iff endLine positive]
    simp only [Bool.or_eq_true, decide_eq_true_eq]
    omega
  simp only [snippet, length_lines, refused]
  rw [selected_eq, ← trimmed_lines, List.map_take, List.map_drop]

/-- A fingerprint is the digest of the selected lines, if there are any. -/
theorem hash_eq : hash content line endLine =
    if selected content line endLine = [] then ""
    else Digest.sha256 (String.ofList (List.intercalate ['\n'] (selected content line endLine))) := by
  rw [hash, snippet_eq endLine positive]
  split_ifs <;> rfl

theorem hash_congr {other : List Char} {line' endLine' : Int} (positive' : 1 ≤ line')
    (same : selected other line' endLine' = selected content line endLine) :
    hash other line' endLine' = hash content line endLine := by
  rw [hash_eq _ positive', hash_eq _ positive, same]

end

/-- **What a fingerprint survives.** It depends on nothing but the trimmed lines of its range. So it stays the
same when lines are indented otherwise, when they end otherwise, when lines outside the range are
changed, and when the range moves down with its text; and it is empty just if the range starts beyond
the last line. -/
theorem hash_survivesEdits (content : List Char) {line : Int} (endLine : Int) (positive : 1 ≤ line) :
    SurvivesEdits content line endLine where
  selected_only other line' endLine' positive' same := hash_congr endLine positive positive' same
  reindented other h := hash_congr endLine positive positive (by rw [selected_eq, selected_eq, reindented_iff.1 h])
  lineEndings other h := hash_congr endLine positive positive (by rw [selected_eq, selected_eq, h.trimmed_eq])
  outside other same := by
    refine hash_congr endLine positive positive (List.filterMap_congr fun i inRange => ?_)
    rw [List.mem_range'_1] at inRange
    have kept := same (i + 1) (by omega) (by omega)
    rw [Nat.add_sub_cancel] at kept
    rw [kept]
  moved before := by
    refine hash_congr endLine positive (by omega) ?_
    have start : (line + (linesOf before).length).toNat - 1 =
        (linesOf before).length + (line.toNat - 1) := by omega
    have count : (max (line + (linesOf before).length) (endLine + (linesOf before).length) -
        (line + (linesOf before).length)).toNat = (max line endLine - line).toNat := by omega
    rw [selected_eq, selected_eq, start, count, linesOf_append_newline, List.map_append, ← List.drop_drop,
      List.drop_left' (List.length_map _)]
  empty_iff := by
    rw [← selected_eq_nil_iff endLine positive, hash_eq endLine positive]
    split
    next none => simp [none]
    next some => simp [some, sha256_ne_empty]

/-- Some lines of a function. -/
def totalText : List Char := "\x7b\n    $total = 0;\n    return $total;\n\x7d".toList

/-- The same lines with tabs, and with carriage returns. -/
def totalTextTabbed : List Char := "\x7b\n\t$total = 0;\n\treturn $total;\n\x7d".toList

def totalTextReturned : List Char := "\x7b\r\n    $total = 0;\r\n    return $total;\r\n\x7d".toList

/-- The same code with other lines around it. -/
def totalTextClosed : List Char := "/* */ \x7b\n    $total = 0;\n    return $total;\n\x7d\x7d\n\n".toList

theorem hash_survivesEdits_total : (1 : Int) ≤ 2 ∧ (1 : Int) ≤ 5 ∧
    hash totalTextTabbed 2 3 = hash totalText 2 3 ∧ hash totalTextReturned 2 3 = hash totalText 2 3 ∧
    hash totalTextClosed 2 3 = hash totalText 2 3 ∧
    hash ("<?php\n".toList ++ '\n' :: totalText) 4 5 = hash totalText 2 3 ∧
    hash totalText 2 3 ≠ "" ∧ hash totalText 5 2 = "" := by
  have second : (1 : Int) ≤ 2 := by decide
  have fifth : (1 : Int) ≤ 5 := by decide
  have edits := hash_survivesEdits totalText 3 second
  have tabbed : Reindented totalText totalTextTabbed := reindented_iff.2 (by decide)
  have joined : Chars.replaceAll ['\r', '\n'] ['\n'] totalTextReturned = totalText := by decide
  have returned := (hash_survivesEdits totalTextReturned 3 second).lineEndings _
    (sameButEndings_joined totalTextReturned)
  rw [joined] at returned
  have closed := edits.outside totalTextClosed fun n low high => by
    obtain rfl | rfl : n = 2 ∨ n = 3 := by omega
    · decide
    · decide
  have within : ¬((linesOf totalText).length : Int) < 2 := by decide
  have beyond := hash_survivesEdits totalText 2 fifth
  exact ⟨second, fifth, edits.reindented _ tabbed, returned.symm, closed, edits.moved "<?php\n".toList,
    fun empty => within (edits.empty_iff.1 empty), beyond.empty_iff.2 (by decide)⟩

end Fingerprint

end ShopLint
