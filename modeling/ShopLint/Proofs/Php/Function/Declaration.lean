import ShopLint.Proofs.Php.Lexeme
import ShopLint.Proofs.Text.Scan
import ShopLint.Php.Function

/-!
Lines that declare a function. What the search for a declaration accepts is said here of the text of
the line.
-/

namespace ShopLint.Php

/-- The word `function`, blanks, perhaps an ampersand with blanks after it, an identifier and an opening
parenthesis, before which blanks may stand. -/
def IsFunctionHead (text : List Char) : Prop :=
  ∃ blanks mark more name gap rest,
    text = "function".toList ++ (blanks ++ (mark ++ (more ++ (name ++ (gap ++ '(' :: rest))))) ∧
    (blanks ≠ [] ∧ ∀ c ∈ blanks, isSpace c) ∧ (mark = [] ∨ mark = ['&']) ∧ (∀ c ∈ more, isSpace c) ∧
    IsIdentifier name ∧ ∀ c ∈ gap, isSpace c

/-- A function head stands in the line, at its start or after a blank, a semicolon or a brace. -/
def Declares (line : List Char) : Prop :=
  ∃ before text, line = before ++ text ∧
    (∀ c, before.getLast? = some c → isSpace c ∨ c ∈ [';', '\x7b', '\x7d']) ∧ IsFunctionHead text

theorem not_isWord_of_isSpace {c : Char} (h : isSpace c) : ¬isWord c := by
  simp only [isSpace, Bool.or_eq_true, decide_eq_true_eq] at h
  rcases h with (((rfl | rfl) | rfl) | rfl) | rfl <;> decide

theorem skipChar_eq (c : Char) (text : List Char) :
    ∃ mark, (mark = [] ∨ mark = [c]) ∧ text = mark ++ skipChar c text := by
  cases text with
  | nil => exact ⟨[], .inl rfl, rfl⟩
  | cons d ds =>
    simp only [skipChar]
    split
    next same => exact ⟨[c], .inr rfl, by rw [same]; rfl⟩
    next => exact ⟨[], .inl rfl, rfl⟩

theorem isFunctionHead_of_functionHead? {text read : List Char} (h : functionHead? text = some read) :
    IsFunctionHead text := by
  simp only [functionHead?, Option.bind_eq_bind, Option.bind_eq_some_iff] at h
  obtain ⟨_, isWord, afterBlanks, isBlanks, ⟨name, afterName⟩, isName, rest, isParen, _⟩ := h
  have word := Chars.after?_eq_some.1 isWord
  obtain ⟨blanks, nonempty, spaces, rfl, _⟩ := spaces?_eq_some_iff.1 isBlanks
  obtain ⟨mark, isMark, marked⟩ := skipChar_eq '&' afterBlanks
  obtain ⟨more, moreBlanks, isMore⟩ := exists_skipSpaces (skipChar '&' afterBlanks)
  obtain ⟨named, identifier, _⟩ := identifier?_eq_some_iff.1 isName
  obtain ⟨gap, gapBlanks, isGap⟩ := exists_skipSpaces afterName
  have paren : skipSpaces afterName = '(' :: rest := Chars.after?_eq_some.1 isParen
  refine ⟨blanks, mark, more, name, gap, rest, ?_, ⟨nonempty, spaces⟩, isMark, isMore, identifier, isGap⟩
  rw [← paren, ← gapBlanks, ← named, ← moreBlanks, ← marked]
  exact word

/-- Blanks and what comes after them do not go on with an identifier. -/
theorem not_isWord_head_gap {gap rest : List Char} (h : ∀ c ∈ gap, isSpace c) :
    ∀ c, (gap ++ '(' :: rest).head? = some c → ¬isWord c := by
  intro c first
  cases gap with
  | nil =>
    obtain rfl : '(' = c := Option.some.inj first
    decide
  | cons d ds =>
    obtain rfl : d = c := Option.some.inj first
    exact not_isWord_of_isSpace (h d List.mem_cons_self)

theorem functionHead?_of_isFunctionHead {text : List Char} (h : IsFunctionHead text) :
    (functionHead? text).isSome := by
  obtain ⟨blanks, mark, more, name, gap, rest, rfl, ⟨nonempty, spaces⟩, isMark, isMore, identifier, isGap⟩ := h
  have word : word? "function" ("function".toList ++ (blanks ++ (mark ++ (more ++ (name ++
      (gap ++ '(' :: rest)))))) = some (blanks ++ (mark ++ (more ++ (name ++ (gap ++ '(' :: rest))))) :=
    Chars.after?_eq_some.2 rfl
  have named : identifier? (name ++ (gap ++ '(' :: rest)) = some (name, gap ++ '(' :: rest) :=
    identifier?_eq_some_iff.2 ⟨rfl, identifier, not_isWord_head_gap isGap⟩
  have paren : skipSpaces (gap ++ '(' :: rest) = '(' :: rest := by
    rw [skipSpaces_append isGap]
    rfl
  obtain ⟨c, cs, rfl, start, _⟩ := identifier
  have atName : ∀ d, (c :: cs ++ (gap ++ '(' :: rest)).head? = some d → ¬isSpace d := by
    intro d first space
    obtain rfl : c = d := Option.some.inj first
    exact not_isWord_of_isSpace space (isWord_of_isNameStart start)
  -- whether or not there is an ampersand, the blanks end where the name starts
  have reached : ∃ afterBlanks, spaces? (blanks ++ (mark ++ (more ++ (c :: cs ++ (gap ++ '(' :: rest))))) =
      some afterBlanks ∧ skipSpaces (skipChar '&' afterBlanks) = c :: cs ++ (gap ++ '(' :: rest) := by
    rcases isMark with rfl | rfl
    · have noMark : c ≠ '&' := by
        rintro rfl
        exact absurd start (by decide)
      refine ⟨_, spaces?_eq_some_iff.2 ⟨blanks ++ more, by simp [nonempty], ?_, by simp, atName⟩, ?_⟩
      · exact fun d mem => (List.mem_append.1 mem).elim (spaces d) (isMore d)
      · rw [List.cons_append, skipChar, if_neg noMark]
        exact skipSpaces_of_head atName
    · have atMark (text : List Char) : ∀ d, ('&' :: text).head? = some d → ¬isSpace d := by
        intro d first
        obtain rfl : '&' = d := Option.some.inj first
        decide
      refine ⟨_, spaces?_eq_some_iff.2 ⟨blanks, nonempty, spaces, rfl, atMark _⟩, ?_⟩
      rw [List.singleton_append, skipChar, if_pos rfl, skipSpaces_append isMore]
      exact skipSpaces_of_head atName
  obtain ⟨afterBlanks, blanksRead, nameStarts⟩ := reached
  simp only [functionHead?, word, blanksRead, nameStarts, named, paren, Option.bind_eq_bind,
    Option.bind_some]
  rfl

theorem statementStart_iff (prev : Option Char) :
    statementStart prev ↔ ∀ c, prev = some c → isSpace c ∨ c ∈ [';', '\x7b', '\x7d'] := by
  cases prev with
  | none => simp [statementStart]
  | some c => simp [statementStart, or_assoc]

/-- The search for a declaration finds one just if there is one. -/
theorem declaresFunction_iff (line : List Char) : declaresFunction line ↔ Declares line := by
  rw [declaresFunction, Scan.occurs, Option.isSome_iff_exists]
  constructor
  · rintro ⟨⟨before, name⟩, found⟩
    obtain ⟨⟨text, split, reads⟩, _⟩ := Scan.find?_eq_some_iff.1 found
    rw [Option.or_none, functionDecl?] at reads
    split at reads
    next start =>
      exact ⟨before, text, split, (statementStart_iff _).1 start, isFunctionHead_of_functionHead? reads⟩
    next => cases reads
  · rintro ⟨before, text, split, start, head⟩
    obtain ⟨name, read⟩ := Option.isSome_iff_exists.1 (functionHead?_of_isFunctionHead head)
    have reads : Scan.ReadsAt functionDecl? none line before name := by
      refine ⟨text, split, ?_⟩
      rw [Option.or_none, functionDecl?, if_pos ((statementStart_iff _).2 start)]
      exact read
    cases found : Scan.find? functionDecl? line with
    | none => exact absurd reads (Scan.first_eq_none_iff.1 found before name)
    | some p => exact ⟨p, rfl⟩

end ShopLint.Php
