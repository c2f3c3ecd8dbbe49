import ShopLint.Php.Function
import ShopLint.Proofs.Text.Trim

/-!
What the body of a function is. In a closed function whose first brace ends the declaration line, or
stands alone on the line after it, the body is what stands between the first opening and the last
closing brace, but for lines that are dropped with the braces: a brace alone on the line after that of
the first, and what precedes the last brace on a line that starts with one. When these are not blank,
code is lost.
-/

namespace ShopLint

/-- A character of a text stands in it for a last time. -/
theorem Chars.exists_last {c : Char} {text : List Char} (h : c ∈ text) :
    ∃ before after, text = before ++ c :: after ∧ c ∉ after := by
  obtain ⟨after, before, split, absent⟩ := List.eq_append_cons_of_mem (List.mem_reverse.2 h)
  refine ⟨before.reverse, after.reverse, ?_, by simpa using absent⟩
  rw [← List.reverse_reverse text, split]
  simp

/-- Before the first `c` there is one text only. -/
theorem Chars.eq_of_append_cons {c : Char} {before other rest rest' : List Char}
    (h : before ++ c :: rest = other ++ c :: rest') (absent : c ∉ before) (absent' : c ∉ other) :
    before = other := by
  have first := cut_singleton_append absent rest
  rw [h, cut_singleton_append absent' rest'] at first
  exact (Prod.mk.inj (Option.some.inj first)).1.symm

namespace Php

/-- What stands strictly between the first opening and the last closing brace of a text. -/
def Encloses (text interior : List Char) : Prop :=
  ∃ before after, text = before ++ '\x7b' :: (interior ++ '\x7d' :: after) ∧ '\x7b' ∉ before ∧
    '\x7d' ∉ after

theorem Encloses.unique {text interior other : List Char} (h : Encloses text interior)
    (h' : Encloses text other) : interior = other := by
  obtain ⟨before, after, rfl, absent, last⟩ := h
  obtain ⟨before', after', eq, absent', last'⟩ := h'
  obtain rfl := Chars.eq_of_append_cons eq absent absent'
  have inner := List.cons.inj (List.append_cancel_left eq)
  have cut := Chars.cutLast_singleton_append last interior
  rw [inner.2, Chars.cutLast_singleton_append last' other] at cut
  exact (Prod.mk.inj (Option.some.inj cut)).1.symm

/-- A line with one opening brace on it and blanks. -/
def IsLoneBrace (line : List Char) : Prop := Chars.trimWhile isBlank line = ['\x7b']

instance (line : List Char) : Decidable (IsLoneBrace line) := inferInstanceAs (Decidable (_ = _))

/-- The first character of a line that is not blank closes a brace. -/
def StartsClosing (line : List Char) : Prop := (Chars.trimWhile isBlank line).head? = some '\x7d'

instance (line : List Char) : Decidable (StartsClosing line) := inferInstanceAs (Decidable (_ = _))

namespace FunctionBlock

/-- The first opening brace is the last character of the declaration line that is not blank. -/
def OpensAtEnd (block : FunctionBlock) : Prop :=
  ∃ head blanks inner, block.lines = (head ++ '\x7b' :: blanks) :: inner ∧ '\x7b' ∉ head ∧
    ∀ c ∈ blanks, isBlank c

/-- The declaration line has no brace, and on the next line an opening brace stands alone. -/
def OpensBelow (block : FunctionBlock) : Prop :=
  ∃ declaration second inner, block.lines = declaration :: second :: inner ∧ '\x7b' ∉ declaration ∧
    '\x7d' ∉ declaration ∧ IsLoneBrace second

/-- A function over several lines whose braces are balanced, with the first and the last of them in
their usual places. -/
structure IsLaidOut (block : FunctionBlock) : Prop where
  long : 2 ≤ block.lines.length
  opened : 0 < block.text.count '\x7b'
  balanced : block.text.count '\x7b' = block.text.count '\x7d'
  closing : ∃ last, block.lines.getLast? = some last ∧ '\x7d' ∈ last
  opening : block.OpensAtEnd ∨ block.OpensBelow

/-- The line that is dropped with the declaration line although the first brace stands there. -/
def lostOpening (block : FunctionBlock) : List (List Char) :=
  match block.lines with
  | declaration :: second :: _ => if '\x7b' ∈ declaration ∧ IsLoneBrace second then [second] else []
  | _ => []

/-- What precedes the last brace on a last line that is dropped as a whole. -/
def lostClosing (block : FunctionBlock) : List (List Char) :=
  match block.lines.getLast? with
  | some last =>
    if StartsClosing last then ((Chars.cutLast ['\x7d'] last).map Prod.fst).toList else []
  | none => []

end FunctionBlock

theorem joinLines_cons {lines : List (List Char)} (nonempty : lines ≠ []) (line : List Char) :
    joinLines (line :: lines) = line ++ '\n' :: joinLines lines := by
  obtain ⟨next, others, rfl⟩ := List.exists_cons_of_ne_nil nonempty
  simp [joinLines, List.intercalate]

/-- What comes at the end of the last line comes at the end of the text. -/
theorem joinLines_concat_append (lines : List (List Char)) (last more : List Char) :
    joinLines (lines ++ [last ++ more]) = joinLines (lines ++ [last]) ++ more := by
  induction lines with
  | nil => simp [joinLines, List.intercalate]
  | cons line lines ih =>
    rw [List.cons_append, joinLines_cons (by simp), ih, List.cons_append, joinLines_cons (by simp)]
    simp

theorem joinLines_concat {lines : List (List Char)} (nonempty : lines ≠ []) (last : List Char) :
    joinLines (lines ++ [last]) = joinLines lines ++ '\n' :: last := by
  induction lines with
  | nil => exact absurd rfl nonempty
  | cons line lines ih =>
    rw [List.cons_append, joinLines_cons (by simp)]
    cases lines with
    | nil => simp [joinLines, List.intercalate]
    | cons next lines => rw [ih (List.cons_ne_nil _ _), joinLines_cons (List.cons_ne_nil _ _)]; simp

/-- Joining adds newlines and nothing else. -/
theorem count_joinLines {c : Char} (h : c ≠ '\n') (lines : List (List Char)) :
    (joinLines lines).count c = lines.flatten.count c := by
  induction lines with
  | nil => rfl
  | cons line lines ih =>
    by_cases none : lines = []
    · simp [none, joinLines, List.intercalate]
    · rw [joinLines_cons none, List.count_append, List.count_cons_of_ne h.symm, ih, List.flatten_cons,
        List.count_append]

/-- A last line of blanks does not count. -/
theorem trimWhile_joinLines_concat {last : List Char} (blank : ∀ c ∈ last, isBlank c)
    (lines : List (List Char)) :
    Chars.trimWhile isBlank (joinLines (lines ++ [last])) = Chars.trimWhile isBlank (joinLines lines) := by
  by_cases none : lines = []
  · rw [none, List.nil_append]
    have alone : joinLines [last] = [] ++ last := by simp [joinLines, List.intercalate]
    rw [alone, Chars.trimWhile_append_right blank]
    rfl
  · rw [joinLines_concat none]
    exact Chars.trimWhile_append_right (List.forall_mem_cons.2 ⟨by decide, blank⟩) _

/-- Spaces and tabs at the end of the last line do not count. -/
theorem trimWhile_joinLines_dropRightWhile (lines : List (List Char)) (last : List Char) :
    Chars.trimWhile isBlank
        (joinLines (lines ++ [Chars.dropRightWhile (fun c => c = ' ' || c = '\t') last])) =
      Chars.trimWhile isBlank (joinLines (lines ++ [last])) := by
  obtain ⟨tail, split, dropped⟩ := Chars.exists_dropRightWhile (fun c => c = ' ' || c = '\t') last
  have blank : ∀ c ∈ tail, isBlank c := by
    intro c mem
    have either := dropped c mem
    simp only [Bool.or_eq_true, decide_eq_true_eq] at either
    obtain rfl | rfl := either <;> decide
  conv =>
    rhs
    rw [split]
  rw [joinLines_concat_append, Chars.trimWhile_append_right blank]

section

variable {line : List Char}

/-- A brace alone on its line stands between blanks. -/
theorem IsLoneBrace.exists_eq (h : IsLoneBrace line) :
    ∃ lead blanks, line = lead ++ '\x7b' :: blanks ∧ (∀ c ∈ lead, isBlank c) ∧ ∀ c ∈ blanks, isBlank c := by
  obtain ⟨lead, blanks, split, before, after⟩ := Chars.exists_trimWhile isBlank line
  rw [h] at split
  exact ⟨lead, blanks, split, before, after⟩

theorem IsLoneBrace.mem (h : IsLoneBrace line) : '\x7b' ∈ line := by
  obtain ⟨lead, blanks, rfl, _⟩ := h.exists_eq
  simp

theorem IsLoneBrace.not_mem_closing (h : IsLoneBrace line) : '\x7d' ∉ line := by
  intro mem
  rcases Chars.mem_trimWhile_or (p := isBlank) mem with blank | mem
  · exact absurd blank (by decide)
  · rw [h] at mem
    exact absurd mem (by decide)

/-- On a line that starts with a closing brace, blanks stand before the last one, unless there is another
before it. -/
theorem StartsClosing.blank_before {cut tail : List Char} (h : StartsClosing (cut ++ '\x7d' :: tail))
    (single : '\x7d' ∉ cut) : ∀ c ∈ cut, isBlank c := by
  obtain ⟨lead, more, split, before, _⟩ := Chars.exists_trimWhile isBlank (cut ++ '\x7d' :: tail)
  rw [StartsClosing] at h
  cases trimmed : Chars.trimWhile isBlank (cut ++ '\x7d' :: tail) with
  | nil =>
    rw [trimmed] at h
    cases h
  | cons c cs =>
    rw [trimmed] at h
    obtain rfl : c = '\x7d' := Option.some.inj h
    rw [trimmed, List.cons_append] at split
    have absent : '\x7d' ∉ lead := fun mem => absurd (before _ mem) (by decide)
    rw [Chars.eq_of_append_cons split single absent]
    exact before

end

namespace FunctionBlock

variable {block : FunctionBlock}

/-- The lines after the declaration line, and after an opening brace alone on the next. -/
def bodyLines (block : FunctionBlock) : List (List Char) :=
  match block.lines with
  | _ :: second :: others => if IsLoneBrace second then others else second :: others
  | _ => []

theorem IsLaidOut.exists_lines (h : block.IsLaidOut) :
    ∃ first second others, block.lines = first :: second :: others := by
  have long := h.long
  match block.lines, long with
  | first :: second :: others, _ => exact ⟨first, second, others, rfl⟩

/-- An opening brace alone on its line is not the last line. -/
theorem IsLaidOut.ne_nil_of_isLoneBrace (h : block.IsLaidOut) {first second : List Char}
    {others : List (List Char)} (eq : block.lines = first :: second :: others) (lone : IsLoneBrace second) :
    others ≠ [] := by
  rintro rfl
  obtain ⟨last, isLast, closes⟩ := h.closing
  rw [eq, List.getLast?_cons_cons, List.getLast?_singleton] at isLast
  cases isLast
  exact lone.not_mem_closing closes

theorem IsLaidOut.body_eq (h : block.IsLaidOut) : block.body = joinLines (dropClosing block.bodyLines) := by
  have closed : block.closed = true := by
    simp only [FunctionBlock.closed, h.balanced, beq_self_eq_true, Bool.and_true, decide_eq_true_eq]
    rw [← h.balanced]
    exact h.opened
  obtain ⟨first, second, others, eq⟩ := h.exists_lines
  simp only [body, bodyLines, eq, closed, if_true]
  rfl

theorem dropClosing_concat {cut tail : List Char} (last : '\x7d' ∉ tail) (lines : List (List Char)) :
    dropClosing (lines ++ [cut ++ '\x7d' :: tail]) =
      if StartsClosing (cut ++ '\x7d' :: tail) then lines
      else lines ++ [Chars.dropRightWhile (fun c => c = ' ' || c = '\t') cut] := by
  simp only [dropClosing, List.getLast?_append, List.getLast?_singleton, Option.some_or,
    List.dropLast_concat, Chars.cutLast_singleton_append last]
  rfl

/-- The text after the first brace: blanks, and the lines that follow. -/
theorem IsLaidOut.text_eq (h : block.IsLaidOut) :
    ∃ before blanks, block.text = before ++ '\x7b' ::
        (blanks ++ '\n' :: joinLines (block.lostOpening ++ block.bodyLines)) ∧
      '\x7b' ∉ before ∧ ∀ c ∈ blanks, isBlank c := by
  obtain ⟨head, blanks, inner, eq, absent, blank⟩ | ⟨declaration, second, others, eq, opens, _, lone⟩ :=
    h.opening
  · have some : inner ≠ [] := by
      rintro rfl
      simpa [eq] using h.long
    have rest : block.lostOpening ++ block.bodyLines = inner := by
      obtain ⟨second, others, rfl⟩ := List.exists_cons_of_ne_nil some
      by_cases lone : IsLoneBrace second <;> simp [lostOpening, bodyLines, eq, lone]
    refine ⟨head, blanks, ?_, absent, blank⟩
    rw [text, eq, joinLines_cons some, rest]
    simp
  · have some := h.ne_nil_of_isLoneBrace eq lone
    have rest : block.lostOpening ++ block.bodyLines = others := by
      simp [lostOpening, bodyLines, eq, lone, opens]
    obtain ⟨lead, blanks, rfl, before, blank⟩ := lone.exists_eq
    have absent : '\x7b' ∉ declaration ++ '\n' :: lead := by
      simp only [List.mem_append, List.mem_cons, not_or]
      exact ⟨opens, by decide, fun mem => absurd (before _ mem) (by decide)⟩
    refine ⟨declaration ++ '\n' :: lead, blanks, ?_, absent, blank⟩
    rw [text, eq, joinLines_cons (List.cons_ne_nil _ _), joinLines_cons some, rest]
    simp

/-- The last line, which holds the last brace, is one of the lines after the first. -/
theorem IsLaidOut.bodyLines_eq (h : block.IsLaidOut) :
    ∃ kept cut tail, block.bodyLines = kept ++ [cut ++ '\x7d' :: tail] ∧ '\x7d' ∉ tail ∧
      block.lostClosing = if StartsClosing (cut ++ '\x7d' :: tail) then [cut] else [] := by
  obtain ⟨last, isLast, closes⟩ := h.closing
  obtain ⟨cut, tail, rfl, absent⟩ := Chars.exists_last closes
  have lost : block.lostClosing = if StartsClosing (cut ++ '\x7d' :: tail) then [cut] else [] := by
    simp [lostClosing, isLast, Chars.cutLast_singleton_append absent]
  have last : block.bodyLines.getLast? = some (cut ++ '\x7d' :: tail) := by
    obtain ⟨first, second, others, eq⟩ := h.exists_lines
    rw [eq, List.getLast?_cons_cons] at isLast
    by_cases lone : IsLoneBrace second
    · obtain ⟨third, rest, rfl⟩ := List.exists_cons_of_ne_nil (h.ne_nil_of_isLoneBrace eq lone)
      rw [List.getLast?_cons_cons] at isLast
      simpa [bodyLines, eq, lone] using isLast
    · simpa [bodyLines, eq, lone] using isLast
  obtain ⟨kept, eq⟩ := List.getLast?_eq_some_iff.1 last
  exact ⟨kept, cut, tail, eq, absent, lost⟩

/-- What stands between the first and the last brace is the body with the lost lines around it. -/
theorem IsLaidOut.encloses (h : block.IsLaidOut) :
    ∃ interior kept, block.body = joinLines kept ∧ Encloses block.text interior ∧
      Chars.trimWhile isBlank interior =
        Chars.trimWhile isBlank (joinLines (block.lostOpening ++ kept ++ block.lostClosing)) := by
  obtain ⟨before, blanks, text, absent, blank⟩ := h.text_eq
  obtain ⟨kept, cut, tail, lines, last, lost⟩ := h.bodyLines_eq
  have body := h.body_eq
  rw [lines, dropClosing_concat last] at body
  rw [lines, ← List.append_assoc, joinLines_concat_append] at text
  have whole : Chars.trimWhile isBlank (blanks ++ '\n' :: joinLines (block.lostOpening ++ kept ++ [cut])) =
      Chars.trimWhile isBlank (joinLines (block.lostOpening ++ kept ++ [cut])) := by
    rw [Chars.trimWhile_append_left blank, ← List.singleton_append]
    exact Chars.trimWhile_append_left (List.forall_mem_singleton.2 (by decide)) _
  refine ⟨blanks ++ '\n' :: joinLines (block.lostOpening ++ kept ++ [cut]), _, body,
    ⟨before, tail, by simpa using text, absent, last⟩, ?_⟩
  rw [whole, lost]
  split
  next => rfl
  next =>
    rw [List.append_nil, ← List.append_assoc]
    exact (trimWhile_joinLines_dropRightWhile _ cut).symm

theorem isLoneBrace_of_mem_lostOpening {line : List Char} (h : line ∈ block.lostOpening) :
    IsLoneBrace line := by
  unfold lostOpening at h
  split at h
  next =>
    split at h
    next lone =>
      rw [List.mem_singleton.1 h]
      exact lone.2
    next => cases h
  next => cases h

theorem IsLaidOut.blank_of_mem_lostClosing (h : block.IsLaidOut) {line : List Char}
    (lost : line ∈ block.lostClosing) (single : '\x7d' ∉ line) : ∀ c ∈ line, isBlank c := by
  obtain ⟨kept, cut, tail, _, _, eq⟩ := h.bodyLines_eq
  rw [eq] at lost
  split at lost
  next starts =>
    obtain rfl := List.mem_singleton.1 lost
    exact starts.blank_before single
  next => cases lost

/-- Lines around the body that are lost matter unless they are blank. -/
theorem IsLaidOut.trimWhile_joinLines_eq_iff (h : block.IsLaidOut) (kept : List (List Char)) :
    Chars.trimWhile isBlank (joinLines kept) =
        Chars.trimWhile isBlank (joinLines (block.lostOpening ++ kept ++ block.lostClosing)) ↔
      block.lostOpening = [] ∧ ∀ line ∈ block.lostClosing, ∀ c ∈ line, isBlank c := by
  constructor
  · intro same
    -- a brace in the lost lines would be one more than there are in the body
    have lostNone {c : Char} (visible : isBlank c = false) (inLine : c ≠ '\n') {line : List Char}
        (lost : line ∈ block.lostOpening ++ block.lostClosing) : c ∉ line := by
      have count := congrArg (List.count c) same
      rw [Chars.count_trimWhile visible, Chars.count_trimWhile visible, count_joinLines inLine,
        count_joinLines inLine] at count
      have zero : (block.lostOpening ++ block.lostClosing).flatten.count c = 0 := by
        simp only [List.flatten_append, List.count_append] at count ⊢
        omega
      exact fun mem => List.count_eq_zero.1 zero (List.mem_flatten_of_mem lost mem)
    refine ⟨?_, fun line lost => ?_⟩
    · refine List.eq_nil_iff_forall_not_mem.2 fun line lost => ?_
      exact lostNone (by decide) (by decide) (List.mem_append_left _ lost)
        (isLoneBrace_of_mem_lostOpening lost).mem
    · exact h.blank_of_mem_lostClosing lost
        (lostNone (by decide) (by decide) (List.mem_append_right _ lost))
  · rintro ⟨none, blank⟩
    rw [none, List.nil_append]
    obtain ⟨lines, cut, tail, _, _, eq⟩ := h.bodyLines_eq
    rw [eq] at blank ⊢
    split
    next starts =>
      rw [if_pos starts] at blank
      exact (trimWhile_joinLines_concat (blank cut (List.mem_singleton_self cut)) kept).symm
    next => rw [List.append_nil]

end FunctionBlock

/-- **What the body of a function leaves out.** Of a function with its braces in their usual places, the
body has the lines between the first and the last brace, but for those that are lost with the braces. It
is the whole text between them, up to blanks around it, just if no brace stands alone on the line after
that of the first, and blanks only stand before the last on a line that starts with one. -/
theorem functionAt_body_whole_iff {lines : List (List Char)} {startLine : Int} {block : FunctionBlock}
    (found : functionAt lines startLine = .ok block) (laid : block.IsLaidOut) :
    ∃ interior kept, (functionAt lines startLine).map FunctionBlock.body = .ok (joinLines kept) ∧
      (∀ other, Encloses block.text other ↔ other = interior) ∧
      Chars.trimWhile isBlank interior =
        Chars.trimWhile isBlank (joinLines (block.lostOpening ++ kept ++ block.lostClosing)) ∧
      (Chars.trimWhile isBlank (joinLines kept) = Chars.trimWhile isBlank interior ↔
        block.lostOpening = [] ∧ ∀ line ∈ block.lostClosing, ∀ c ∈ line, isBlank c) := by
  obtain ⟨interior, kept, body, encloses, whole⟩ := laid.encloses
  refine ⟨interior, kept, ?_, fun other => ⟨fun h => h.unique encloses, ?_⟩, whole, ?_⟩
  · rw [found, ← body]
    rfl
  · rintro rfl
    exact encloses
  · rw [whole]
    exact laid.trimWhile_joinLines_eq_iff kept

/-- Code and the last brace on a line that starts with another. -/
def sharedLastLine : FunctionBlock where
  startLine := 1
  endLine := 4
  lines := ["function f() \x7b", "    if ($a) \x7b", "        b();", "    \x7d c(); \x7d"].map String.toList

theorem functionAt_body_whole_iff_shared :
    functionAt sharedLastLine.lines 1 = .ok sharedLastLine ∧ sharedLastLine.IsLaidOut ∧
      ∃ interior, Encloses sharedLastLine.text interior ∧
        Chars.trimWhile isBlank sharedLastLine.body ≠ Chars.trimWhile isBlank interior := by
  have found : functionAt sharedLastLine.lines 1 = .ok sharedLastLine := by decide +kernel
  have laid : sharedLastLine.IsLaidOut := by
    refine ⟨by decide, by decide +kernel, by decide +kernel, ⟨_, rfl, by decide +kernel⟩, .inl ?_⟩
    exact ⟨"function f() ".toList, [], _, rfl, by decide +kernel, by simp⟩
  refine ⟨found, laid, ?_⟩
  obtain ⟨interior, kept, body, encloses, _, whole⟩ := functionAt_body_whole_iff found laid
  rw [found] at body
  refine ⟨interior, (encloses interior).2 rfl, fun same => ?_⟩
  have blank := (whole.1 (Except.ok.inj body ▸ same)).2 "    \x7d c(); ".toList (by decide +kernel)
  exact absurd (blank 'c' (by decide +kernel)) (by decide)

end Php

end ShopLint
