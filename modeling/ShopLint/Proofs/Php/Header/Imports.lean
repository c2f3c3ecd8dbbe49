import ShopLint.Proofs.Php.Header.Statement

/-!
All imports of a file. Within an import no other one can be read, even if its names are spelled like the words
of a statement. So the imports found one after the other are those read at the heads of the file, each by
itself.
-/

namespace ShopLint.Php

/-- Two names that go on to the same text are the same. -/
theorem append_inj_of_ends {a b x y : List Char} (h : a ++ x = b ++ y) (named : ∀ c ∈ a, isQualified c)
    (named' : ∀ c ∈ b, isQualified c) (ends : Ends x) (ends' : Ends y) : a = b ∧ x = y := by
  have same : a = b := by
    rw [← (ends.stretch named).1, h, (ends'.stretch named').1]
  subst same
  exact ⟨rfl, List.append_cancel_left h⟩

theorem qualified?_eq_some {text name rest : List Char} (h : qualified? text = some (name, rest)) :
    text = name ++ rest ∧ ∀ c ∈ name, isQualified c := by
  cases text with
  | nil => cases h
  | cons c cs =>
    simp only [qualified?] at h
    split at h
    next start =>
      obtain ⟨rfl, rfl⟩ := Prod.mk.inj (Option.some.inj h)
      refine ⟨by rw [List.cons_append, List.takeWhile_append_dropWhile], ?_⟩
      refine List.forall_mem_cons.2 ⟨isQualified_of_isWord (isWord_of_isNameStart start), ?_⟩
      exact fun d mem => List.mem_takeWhile_imp mem
    next => cases h

/-- What is read as an import, with the blanks between its words. -/
theorem exists_of_use? {text rest : List Char} {u : Use} (h : use? text = some (u, rest)) :
    ∃ (gap : Spacing) (root : List Char) (blanks : Blanks), (root = [] ∨ root = ['\\']) ∧
      (∀ c ∈ u.name, isQualified c) ∧
      (text = "use".toList ++ (gap.1 ++ (root ++ (u.name ++ (blanks.1 ++ ';' :: rest)))) ∨
        ∃ (before after : Spacing) (short : List Char), IsIdentifier short ∧
          text = "use".toList ++ (gap.1 ++ (root ++ (u.name ++ (before.1 ++ ("as".toList ++ (after.1 ++
            (short ++ (blanks.1 ++ ';' :: rest))))))))) := by
  simp only [use?, Option.bind_eq_bind, Option.bind_eq_some_iff] at h
  obtain ⟨afterWord, isWord, afterGap, isGap, ⟨name, afterName⟩, isName, closing, isClosing, made⟩ := h
  obtain ⟨gap, nonempty, spaces, rfl, _⟩ := spaces?_eq_some_iff.1 isGap
  obtain ⟨root, isRoot, rooted⟩ := skipChar_eq '\\' afterGap
  obtain ⟨written, named⟩ := qualified?_eq_some isName
  have front : text = "use".toList ++ (gap ++ (root ++ (name ++ afterName))) := by
    rw [← written, ← rooted]
    exact Chars.after?_eq_some.1 isWord
  have ending {more : List Char} (h : Chars.afterOne? (· = ';') (skipSpaces more) = some closing) :
      ∃ blanks : Blanks, more = blanks.1 ++ ';' :: closing := by
    obtain ⟨blanks, split, spaces⟩ := exists_skipSpaces more
    cases tail : skipSpaces more with
    | nil => simp [tail, Chars.afterOne?] at h
    | cons c cs =>
      simp only [tail, Chars.afterOne?, decide_eq_true_eq] at h
      split at h
      next same =>
        obtain rfl := Option.some.inj h
        exact ⟨⟨blanks, spaces⟩, by rw [split, tail, same]⟩
      next => cases h
  cases short : useAlias? afterName with
  | none =>
    simp only [short] at isClosing made
    obtain ⟨blanks, rfl⟩ := ending isClosing
    cases made
    exact ⟨⟨gap, nonempty, spaces⟩, root, blanks, isRoot, named, .inl front⟩
  | some found =>
    obtain ⟨name', afterShort⟩ := found
    simp only [short] at isClosing made
    obtain ⟨blanks, rfl⟩ := ending isClosing
    cases made
    simp only [useAlias?, Option.bind_eq_bind, Option.bind_eq_some_iff] at short
    obtain ⟨afterBefore, isBefore, afterAs, isAs, afterAfter, isAfter, isShort⟩ := short
    obtain ⟨before, someBefore, spacesBefore, rfl, _⟩ := spaces?_eq_some_iff.1 isBefore
    obtain ⟨after, someAfter, spacesAfter, rfl, _⟩ := spaces?_eq_some_iff.1 isAfter
    obtain ⟨rfl, identifier, _⟩ := identifier?_eq_some_iff.1 isShort
    rw [Chars.after?_eq_some.1 isAs] at front
    exact ⟨⟨gap, nonempty, spaces⟩, root, blanks, isRoot, named, .inr ⟨⟨before, someBefore, spacesBefore⟩,
      ⟨after, someAfter, spacesAfter⟩, name', identifier, front⟩⟩

section

variable {text rest : List Char}

theorem use?_of_head (h : text.head? ≠ some 'u') : use? text = none := by
  apply use?_eq_none
  intro same
  cases text with
  | nil => cases same
  | cons c cs =>
    rw [firstWord, List.takeWhile_cons] at same
    split at same
    · exact h (congrArg some (List.cons.inj same).1)
    · cases same

/-- Before a semicolon the word has no name after it. -/
theorem use?_semicolon (blanks : Blanks) (rest : List Char) :
    use? ("use".toList ++ (blanks.1 ++ ';' :: rest)) = none := by
  rw [use?, word?_append, Option.bind_eq_bind, Option.bind_some]
  rcases spaces?_blanks blanks (@starting_cons ';' (by decide) rest) with none | passed
  · rw [none]
    rfl
  · rw [passed]
    rfl

/-- No alias is read of an alias. -/
theorem useAlias?_short (after : Spacing) (blanks : Blanks) {short : List Char} (named : IsIdentifier short)
    (rest : List Char) : useAlias? (after.1 ++ (short ++ (blanks.1 ++ ';' :: rest))) = none := by
  have ends : Ends (blanks.1 ++ ';' :: rest) := ends_blanks blanks (ends_cons (by decide) rest)
  rw [useAlias?, spaces?_spacing after (named.starting _), Option.bind_eq_bind, Option.bind_some]
  cases isAs : word? "as" (short ++ (blanks.1 ++ ';' :: rest)) with
  | none => rfl
  | some afterAs =>
    cases passed : spaces? afterAs with
    | none => simp [passed]
    | some found =>
      -- the alias is the word itself, and after it comes the semicolon
      obtain ⟨gap, nonempty, spaces, split, _⟩ := spaces?_eq_some_iff.1 passed
      have ends' : Ends afterAs := split ▸ ends_spacing ⟨gap, nonempty, spaces⟩ found
      obtain ⟨_, same⟩ :=
        append_inj_of_ends (Chars.after?_eq_some.1 isAs) named.isQualified (by decide) ends ends'
      have semicolon : found = ';' :: rest := by
        rw [eq_skipSpaces_of_spaces? passed, ← same, skipSpaces_blanks blanks (starting_cons (by decide) rest)]
      rw [Option.bind_some, passed, semicolon]
      rfl

/-- An alias is no import of the word before it. -/
theorem use?_as (before after : Spacing) (blanks : Blanks) {short : List Char} (named : IsIdentifier short)
    (rest : List Char) : use? ("use".toList ++ (before.1 ++ ("as".toList ++ (after.1 ++ (short ++
      (blanks.1 ++ ';' :: rest)))))) = none := by
  have atAs : spaces? (before.1 ++ ("as".toList ++ (after.1 ++ (short ++ (blanks.1 ++ ';' :: rest))))) =
      some ("as".toList ++ (after.1 ++ (short ++ (blanks.1 ++ ';' :: rest)))) :=
    spaces?_spacing before (starting_cons (by decide) _)
  have unrooted : skipChar '\\' ("as".toList ++ (after.1 ++ (short ++ (blanks.1 ++ ';' :: rest)))) =
      "as".toList ++ (after.1 ++ (short ++ (blanks.1 ++ ';' :: rest))) := rfl
  have name : qualified? ("as".toList ++ (after.1 ++ (short ++ (blanks.1 ++ ';' :: rest)))) =
      some ("as".toList, after.1 ++ (short ++ (blanks.1 ++ ';' :: rest))) :=
    (⟨[], "as".toList, by decide, by decide⟩ : QualifiedName).qualified?_append (ends_spacing after _)
  have unclosed : Chars.afterOne? (· = ';') (skipSpaces (after.1 ++ (short ++ (blanks.1 ++ ';' :: rest)))) =
      none := by
    rw [skipSpaces_append after.2.2, skipSpaces_of_head (named.starting _)]
    obtain ⟨c, cs, rfl, start, _⟩ := named
    have other : c ≠ ';' := by
      rintro rfl
      exact absurd start (by decide)
    simp [Chars.afterOne?, other]
  rw [use?, word?_append]
  simp only [Option.bind_eq_bind, Option.bind_some, atAs, unrooted, name, useAlias?_short after blanks named,
    unclosed, Option.bind_none]

/-- Where the name stands, an import is read only if the name is spelled like the word. -/
theorem use?_name {root name more : List Char} (isRoot : root = [] ∨ root = ['\\'])
    (named : ∀ c ∈ name, isQualified c) (ends : Ends more) (own : use? ("use".toList ++ more) = none) :
    use? ((root ++ name) ++ more) = none := by
  rcases isRoot with rfl | rfl
  · by_cases same : name = "use".toList
    · rw [same]
      exact own
    · exact use?_eq_none (firstWord_ne (by decide) named ends same)
  · exact use?_of_head (by simp)

/-- What stands between the name and the semicolon decides whether anything is read within an import. -/
theorem separate_of_tail (gap : Spacing) {root name tail : List Char} (isRoot : root = [] ∨ root = ['\\'])
    (named : ∀ c ∈ name, isQualified c) (ends : Ends (tail ++ [';']))
    (own : use? ("use".toList ++ (tail ++ ';' :: rest)) = none)
    (inner : AllHeads (fun head => use? head = none) (tail ++ [';']) rest) :
    ∃ c cs e, "use".toList ++ (gap.1 ++ (root ++ (name ++ (tail ++ ';' :: rest)))) = c :: (cs ++ e :: rest) ∧
      ¬isSpace c ∧ ¬isSpace e ∧ ∀ head ∈ headsIn false (cs ++ [e]) rest, use? head = none := by
  have noSpace : ∀ c ∈ root ++ name, ¬isSpace c := by
    intro c mem
    rcases List.mem_append.1 mem with inRoot | inName
    · rcases isRoot with rfl | rfl
      · cases inRoot
      · obtain rfl := List.mem_singleton.1 inRoot
        decide
    · exact not_isSpace_of_isQualified (named c inName)
  have own' : use? ("use".toList ++ (tail ++ [';'] ++ rest)) = none := by
    rw [List.append_assoc]
    exact own
  have atName : AllHeads (fun head => use? head = none) ((root ++ name) ++ (tail ++ [';'])) rest :=
    (allHeads_word noSpace (use?_name isRoot named (ends.append (by simp) rest) own')).append inner
  have whole : AllHeads (fun head => use? head = none)
      ("se".toList ++ (gap.1 ++ ((root ++ name) ++ (tail ++ [';'])))) rest :=
    (allHeads_word (by decide) (use?_of_head (by simp))).append (atName.spaced gap.2.2)
  refine ⟨'u', "se".toList ++ (gap.1 ++ ((root ++ name) ++ tail)), ';', ?_, by decide, by decide, ?_⟩
  · have flat (a b c d e : List Char) : a ++ (b ++ (c ++ (d ++ (e ++ ';' :: rest)))) =
        a ++ (b ++ ((c ++ d) ++ e)) ++ ';' :: rest := by simp
    exact congrArg ('u' :: ·) (flat "se".toList gap.1 root name tail)
  · have flat (a b c d : List Char) : a ++ (b ++ (c ++ d)) ++ [';'] = a ++ (b ++ (c ++ (d ++ [';']))) := by simp
    rw [flat]
    exact whole false

/-- Within an import no other one is read. -/
theorem separate_use? : Separate use? := by
  intro text u rest h
  obtain ⟨gap, root, blanks, isRoot, named, written⟩ := exists_of_use? h
  have ends : Ends (blanks.1 ++ [';']) := ends_blanks blanks (ends_cons (by decide) [])
  have semicolon : AllHeads (fun head => use? head = none) (blanks.1 ++ [';']) rest :=
    (allHeads_word (by decide) (use?_of_head (by simp))).spaced blanks.2
  rcases written with rfl | ⟨before, after, short, isShort, rfl⟩
  · exact separate_of_tail gap isRoot named ends (use?_semicolon blanks rest) semicolon
  · have noSpace : ∀ c ∈ short, ¬isSpace c :=
      fun c mem => not_isSpace_of_isQualified (isShort.isQualified c mem)
    have own : use? ((([] : List Char) ++ short) ++ (blanks.1 ++ [';'] ++ rest)) = none := by
      apply use?_name (.inl rfl) isShort.isQualified (ends.append (by simp) rest)
      rw [List.append_assoc]
      exact use?_semicolon blanks rest
    have atShort : AllHeads (fun head => use? head = none) (short ++ (blanks.1 ++ [';'])) rest :=
      (allHeads_word noSpace own).append semicolon
    have atAs : AllHeads (fun head => use? head = none)
        ("as".toList ++ (after.1 ++ (short ++ (blanks.1 ++ [';'])))) rest :=
      (allHeads_word (by decide) (use?_of_head (by simp))).append (atShort.spaced after.2.2)
    have flat (a b c d e f : List Char) : a ++ (b ++ (c ++ (d ++ (e ++ f)))) =
        (a ++ (b ++ (c ++ (d ++ e)))) ++ f := by simp
    have inner := atAs.spaced before.2.2
    have ends' : Ends (before.1 ++ ("as".toList ++ (after.1 ++ (short ++ (blanks.1 ++ [';']))))) :=
      ends_spacing before _
    have closing := use?_as before after blanks isShort rest
    rw [flat before.1] at inner ends' closing ⊢
    exact separate_of_tail gap isRoot named ends' closing inner

end

/-- The imports of a file are what is read at its heads. -/
theorem usesOf_eq (source : List Char) :
    usesOf source = (heads source).filterMap fun head => (use? head).map Prod.fst :=
  allFrom_atLineStart separate_use? none source

end ShopLint.Php
