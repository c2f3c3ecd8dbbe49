import ShopLint.Proofs.Php.Constructor.Parameter
import ShopLint.Proofs.Text.Search

/-!
Constructor signatures read back. The first constructor of a file is found where it is written, and its
parameters are read in order, each as it is written and on the line on which it starts.
-/

namespace ShopLint.Php

/-- A constructor signature within a file, the first that the file has. `closing` holds the blanks after a
trailing comma, or those in a list without parameters. -/
structure WrittenSignature where
  before : List Char
  beforeName : Break
  afterName : Gap
  params : List WrittenParam
  closing : Option Gap
  rest : List Char
  first : ¬"__construct".toList <:+: before

namespace WrittenSignature

variable (s : WrittenSignature)

/-- From the word `function` to the parenthesis. -/
def opening : List Char :=
  "function".toList ++ (s.beforeName.1 ++ ("__construct".toList ++ (s.afterName.1 ++ ['('])))

/-- What stands between the commas. -/
def pieces : List (List Char) :=
  s.params.map WrittenParam.text ++ s.closing.toList.map Subtype.val

def list : List Char := [','].intercalate s.pieces

def source : List Char := s.before ++ s.opening ++ (s.list ++ ')' :: s.rest)

end WrittenSignature

/-- Parameters one after the other, each with the text before its first word. -/
def placed (front : List Char) : List WrittenParam → List (List Char × WrittenParam)
  | [] => []
  | p :: ps => (front ++ p.lead.1, p) :: placed (front ++ (p.text ++ [','])) ps

theorem map_snd_placed (front : List Char) (ps : List WrittenParam) : (placed front ps).map Prod.snd = ps := by
  induction ps generalizing front with
  | nil => rfl
  | cons p ps ih => rw [placed, List.map_cons, ih]

/-! The parameters of a list -/

theorem param?_gap (order : Dict.Listing String) (imports : Dict String) (space : String) (line : Nat)
    (gap : Gap) : param? order imports space line gap.1 = none := by
  have kept : Scan.erase attribute? (gap.1 ++ []) = gap.1 ++ Scan.erase attribute? [] := by
    apply Scan.erase_append
    intro c mem more
    apply WrittenParam.attribute?_eq_none
    rintro rfl
    exact WrittenParam.not_mem_gap (by decide) mem
  have trimmed : Chars.trimWhile isBlank (Scan.erase attribute? gap.1) = [] := by
    rw [List.append_nil] at kept
    rw [kept, Chars.trimWhile_append_left WrittenParam.isBlank_of_mem_gap]
    rfl
  simp only [param?, trimmed]
  rfl

theorem takeWhile_isLead_text (p : WrittenParam) : p.text.takeWhile isLead = p.lead.1 := by
  obtain ⟨c, more, spelled, blankless⟩ := p.starts_words
  have stops : isLead c = false := by
    rw [Bool.eq_false_iff]
    intro lead
    simp [isBlank_of_isSpace (isSpace_of_isLead lead)] at blankless
  rw [WrittenParam.text, spelled, List.cons_append]
  exact Chars.takeWhile_until p.lead.2 stops _

theorem lineAfter_append (front text : List Char) :
    lineAfter (front ++ text) = lineAfter front + text.count '\n' := by
  simp only [lineAfter, List.count_append]
  omega

/-- The parameters of a list are read in order, whatever blanks come after the last comma. -/
theorem paramsFrom_placed (orders : Nat → Dict.Listing String) (imports : Dict String) (space : String)
    (closing : Option Gap) (ps : List WrittenParam) (front : List Char) :
    paramsFrom orders imports space (lineAfter front)
        (ps.map WrittenParam.text ++ closing.toList.map Subtype.val) =
      (placed front ps).mapIdx fun n (before, p) =>
        p.meaning (orders n) imports space (lineAfter before) := by
  induction ps generalizing orders front with
  | nil =>
    cases closing with
    | none => rfl
    | some gap => simp [paramsFrom, placed, param?_gap]
  | cons p ps ih =>
    have here : lineAfter front + (p.text.takeWhile isLead).count '\n' = lineAfter (front ++ p.lead.1) := by
      rw [takeWhile_isLead_text, lineAfter_append]
    have next : lineAfter front + p.text.count '\n' = lineAfter (front ++ (p.text ++ [','])) := by
      rw [← List.append_assoc, lineAfter_append, lineAfter_append]
      rfl
    simp only [List.map_cons, List.cons_append, paramsFrom, here, next, ih, p.param?_text, placed,
      List.mapIdx_cons]

/-! Where the signature stands -/

/-- A signature starts with the words that give it away. -/
theorem exists_of_signature? {text : List Char} {found : List Char × List Char}
    (h : signature? text = some found) :
    ∃ blanks more, text = "function".toList ++ (blanks ++ ("__construct".toList ++ more)) ∧
      ∀ c ∈ blanks, isSpace c := by
  simp only [signature?, Option.bind_eq_bind, Option.bind_eq_some_iff] at h
  obtain ⟨_, isKeyword, _, isBlanks, more, isName, _⟩ := h
  obtain ⟨blanks, _, spaces, rfl, _⟩ := spaces?_eq_some_iff.1 isBlanks
  refine ⟨blanks, more, ?_, spaces⟩
  rw [← Chars.after?_eq_some.1 isName]
  exact Chars.after?_eq_some.1 isKeyword

namespace WrittenSignature

variable (s : WrittenSignature)

/-- Neither a comma nor a closing parenthesis stands between the commas. -/
theorem not_mem_of_mem_pieces {c : Char} (h : c ∈ ",)".toList) {piece : List Char} (mem : piece ∈ s.pieces) :
    c ∉ piece := by
  rcases List.mem_append.1 mem with isParam | isClosing
  · obtain ⟨p, _, rfl⟩ := List.mem_map.1 isParam
    exact p.not_mem_text h
  · obtain ⟨gap, _, rfl⟩ := List.mem_map.1 isClosing
    apply WrittenParam.not_mem_gap
    revert c
    decide

theorem paren_not_mem_list : ')' ∉ s.list := by
  have absent : ∀ piece ∈ s.pieces, ')' ∉ piece := fun _ => s.not_mem_of_mem_pieces (by decide)
  rw [list]
  cases pieces : s.pieces with
  | nil => simp
  | cons piece others =>
    rw [pieces] at absent
    simp only [Chars.intercalate_cons, List.mem_append, List.mem_flatMap, List.mem_cons, not_or, not_exists,
      not_and]
    refine ⟨absent piece List.mem_cons_self, fun other listed => ⟨by decide, ?_⟩⟩
    exact absent other (List.mem_cons_of_mem _ listed)

theorem opening_append (more : List Char) : s.opening ++ more =
    "function".toList ++ (s.beforeName.1 ++ ("__construct".toList ++ (s.afterName.1 ++ '(' :: more))) := by
  have flat (a b c d : List Char) :
      (a ++ (b ++ (c ++ (d ++ ['('])))) ++ more = a ++ (b ++ (c ++ (d ++ '(' :: more))) := by simp
  exact flat _ _ _ _

theorem signature?_source :
    signature? (s.opening ++ (s.list ++ ')' :: s.rest)) = some (s.list, s.list ++ ')' :: s.rest) := by
  have keyword (more : List Char) : word? "function" ("function".toList ++ more) = some more :=
    Chars.after?_eq_some.2 rfl
  have name (more : List Char) : word? "__construct" ("__construct".toList ++ more) = some more :=
    Chars.after?_eq_some.2 rfl
  have blanks (more : List Char) :
      spaces? (s.beforeName.1 ++ ("__construct".toList ++ more)) = some ("__construct".toList ++ more) := by
    refine spaces?_eq_some_iff.2 ⟨s.beforeName.1, s.beforeName.2.1, fun c mem => ?_, rfl, fun c first => ?_⟩
    · exact isSpace_of_isLead (s.beforeName.2.2 c mem)
    · obtain rfl : '_' = c := Option.some.inj first
      decide
  have paren (more : List Char) : word? "(" (skipSpaces (s.afterName.1 ++ '(' :: more)) = some more := by
    rw [skipSpaces_append fun c mem => isSpace_of_isLead (s.afterName.2 c mem)]
    exact Chars.after?_eq_some.2 rfl
  have inside : ∀ c ∈ s.list, decide (c ≠ ')') := by
    intro c mem
    rw [decide_eq_true_eq]
    rintro rfl
    exact s.paren_not_mem_list mem
  have list : (s.list ++ ')' :: s.rest).takeWhile (· ≠ ')') = s.list :=
    Chars.takeWhile_until inside (by decide) _
  have closed : Chars.afterOne? (· = ')') (')' :: s.rest) = some s.rest := rfl
  rw [opening_append]
  simp only [signature?, Option.bind_eq_bind]
  rw [keyword, Option.bind_some, blanks, Option.bind_some, name, Option.bind_some, paren, Option.bind_some,
    list, List.drop_left, closed]
  rfl

/-- No signature starts before the one that is written. -/
theorem leftmost {earlier : List Char} {found : List Char × List Char}
    (h : Scan.ReadsAt (fun _ text => signature? text) none s.source earlier found) :
    s.before.length ≤ earlier.length := by
  obtain ⟨text, split, read⟩ := h
  obtain ⟨blanks, more, rfl, spaces⟩ := exists_of_signature? read
  have flat (a b c : List Char) : 'f' :: (a ++ (b ++ c)) ++ more = 'f' :: a ++ (b ++ (c ++ more)) := by simp
  have place : s.before ++ 'f' :: ("unction".toList ++ (s.beforeName.1 ++ ("__construct".toList ++
      (s.afterName.1 ++ '(' :: (s.list ++ ')' :: s.rest))))) =
      earlier ++ ('f' :: ("unction".toList ++ (blanks ++ "__construct".toList)) ++ more) := by
    rw [flat]
    refine Eq.trans ?_ split
    rw [source, List.append_assoc, opening_append]
    rfl
  -- the letter f stands at the start only, so the two signatures do not overlap
  have absent : 'f' ∉ "unction".toList ++ (blanks ++ "__construct".toList) := by
    rw [List.mem_append, List.mem_append]
    rintro (inKeyword | inBlanks | inName)
    · exact absurd inKeyword (by decide)
    · exact absurd (spaces 'f' inBlanks) (by decide)
    · exact absurd inName (by decide)
  have outside : ¬('f' :: ("unction".toList ++ (blanks ++ "__construct".toList))) <:+: s.before := by
    intro inside
    apply s.first
    refine List.IsInfix.trans ?_ inside
    exact ((List.suffix_append blanks _).trans (List.suffix_append "function".toList _)).isInfix
  exact Chars.length_le_of_append place absent outside

theorem find?_source : Scan.find? (fun _ text => signature? text) s.source =
    some (s.before, s.list, s.list ++ ')' :: s.rest) := by
  rw [Scan.find?_eq_some_iff]
  refine ⟨⟨s.opening ++ (s.list ++ ')' :: s.rest), ?_, s.signature?_source⟩, fun _ _ => s.leftmost⟩
  rw [source, List.append_assoc]

theorem textBefore_list : textBefore s.source (s.list ++ ')' :: s.rest) = s.before ++ s.opening := by
  have cut (front back : List Char) : textBefore (front ++ back) back = front := by simp [textBefore]
  exact cut _ _

/-- Dividing the list at its commas gives the pieces, or one empty piece. -/
theorem splitOn_list : Chars.splitOn ',' s.list = if s.pieces = [] then [[]] else s.pieces :=
  Chars.splitOn_intercalate fun _ mem => s.not_mem_of_mem_pieces (by decide) mem

theorem paramsFrom_list (orders : Nat → Dict.Listing String) (imports : Dict String) (space : String)
    (front : List Char) :
    paramsFrom orders imports space (lineAfter front) (Chars.splitOn ',' s.list) =
      (placed front s.params).mapIdx fun n (before, p) =>
        p.meaning (orders n) imports space (lineAfter before) := by
  have whole := paramsFrom_placed orders imports space s.closing s.params front
  rw [splitOn_list]
  by_cases empty : s.pieces = []
  · have absent : s.params = [] := List.map_eq_nil_iff.1 (List.append_eq_nil_iff.1 empty).1
    have blank : param? (orders 0) imports space (lineAfter front) [] = none :=
      param?_gap _ imports space _ ⟨[], by simp⟩
    rw [if_pos empty, absent]
    simp [paramsFrom, placed, blank]
  · rw [if_neg empty]
    exact whole

end WrittenSignature

/-- Each parameter stands where it is placed. -/
theorem prefix_of_mem_placed {ps : List WrittenParam} {front : List Char} {before : List Char}
    {p : WrittenParam} (h : (before, p) ∈ placed front ps) (closing : List (List Char)) :
    before ++ p.words <+: front ++ [','].intercalate (ps.map WrittenParam.text ++ closing) := by
  induction ps generalizing front with
  | nil => cases h
  | cons q ps ih =>
    rcases List.mem_cons.1 h with same | later
    · cases same
      rw [List.map_cons, List.cons_append, Chars.intercalate_cons, WrittenParam.text, List.append_assoc,
        List.append_assoc, List.append_assoc]
      exact List.prefix_append_right_inj front |>.2 (List.prefix_append_right_inj p.lead.1 |>.2
        (List.prefix_append _ _))
    · cases ps with
      | nil => cases later
      | cons r rs =>
        have inside := ih later
        rw [List.map_cons, List.cons_append] at inside
        rw [List.map_cons, List.map_cons, List.cons_append, List.cons_append, List.intercalate_cons_cons,
          ← List.append_assoc]
        exact inside

/-- **Constructor signatures are read back.** The first constructor of a file is found on its line. It has
the parameters that are written, in order: each with its name, its type as written and what that means in
the file when its imports are gone through in some order, and on the line on which its first word
stands. -/
theorem constructorOf_reads_signature (s : WrittenSignature) (orders : Nat → Dict.Listing String) :
    constructorOf orders s.source = some
      { line := lineAfter s.before
        params := (placed (s.before ++ s.opening) s.params).mapIdx fun n (front, p) =>
          p.meaning (orders n) (importsOf s.source) (namespaceOf s.source) (lineAfter front) } ∧
    (placed (s.before ++ s.opening) s.params).map Prod.snd = s.params ∧
    ∀ front p, (front, p) ∈ placed (s.before ++ s.opening) s.params → front ++ p.words <+: s.source := by
  refine ⟨?_, map_snd_placed _ _, fun front p mem => ?_⟩
  · simp only [constructorOf, s.find?_source, Option.map_some, s.textBefore_list, s.paramsFrom_list]
  · have inside := prefix_of_mem_placed mem (s.closing.toList.map Subtype.val)
    refine inside.trans ⟨')' :: s.rest, ?_⟩
    rw [List.append_assoc]
    rfl

/-- A signature over several lines, with a promoted parameter, a default and a trailing comma. -/
def cartSignature : WrittenSignature where
  before := "<?php\nnamespace Shop;\nuse Log\\Writer as Log;\nclass Cart\n\x7b\n  public ".toList
  beforeName := ⟨[' '], by decide⟩
  afterName := ⟨[], by decide⟩
  params :=
    [{ lead := ⟨"\n    ".toList, by decide⟩
       modifiers := [⟨"PRIVATE".toList, ⟨" ".toList, by decide⟩, by decide⟩,
        ⟨"readonly".toList, ⟨"\t".toList, by decide⟩, by decide⟩]
       type := some (⟨true, "Log".toList, [], by decide, by decide⟩, ⟨" ".toList, by decide⟩)
       reference := none
       variadic := none
       name := "log".toList
       after := ⟨[], by decide⟩
       value := none
       isName := by decide
       value_inside := by simp },
     { lead := ⟨"\n    ".toList, by decide⟩
       modifiers := []
       type := some (⟨false, "null".toList, ["Item".toList], by decide, by decide⟩, ⟨"\n".toList, by decide⟩)
       reference := some ⟨[], by decide⟩
       variadic := none
       name := "item".toList
       after := ⟨" ".toList, by decide⟩
       value := some " null /* #[x] */".toList
       isName := by decide
       value_inside := by decide }]
  closing := some ⟨"\n  ".toList, by decide⟩
  rest := " \x7b\x7d\n\x7d\n".toList
  first := by decide +kernel

/-- The first parameter is found on line 7, with the class that its import names. -/
theorem constructorOf_reads_signature_cart :
    constructorOf (fun _ => .sorted) cartSignature.source = some
      { line := 6
        params :=
          [{ name := "log", type := "Log", className := "Log\\Writer", nullable := true, isOptional := false,
             line := 7 },
           { name := "item", type := "null|Item", className := "Shop\\Item", nullable := true,
             isOptional := true, line := 8 }] } ∧
    ∃ front p, (front, p) ∈ placed (cartSignature.before ++ cartSignature.opening) cartSignature.params ∧
      front ++ p.words <+: cartSignature.source := by
  obtain ⟨read, _, inside⟩ := constructorOf_reads_signature cartSignature fun _ => .sorted
  refine ⟨read.trans (by decide +kernel), _, _, List.mem_cons_self, inside _ _ List.mem_cons_self⟩

end ShopLint.Php
