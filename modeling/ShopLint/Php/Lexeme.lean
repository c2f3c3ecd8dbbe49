import ShopLint.Text.Case
import ShopLint.Text.Chars
import ShopLint.Text.Classes

/-!
The smallest pieces of PHP source: blanks, words, identifiers and qualified names. A reader returns
what follows the piece, and names also what they are.
-/

namespace ShopLint.Php

def skipSpaces (text : List Char) : List Char := text.dropWhile isSpace

/-- At least one blank. -/
def spaces? (text : List Char) : Option (List Char) :=
  (Chars.afterOne? isSpace text).map skipSpaces

def word? (word : String) (text : List Char) : Option (List Char) := Chars.after? word.toList text

/-- An identifier: a letter or underscore, then letters, digits and underscores. -/
def identifier? : List Char → Option (List Char × List Char)
  | [] => none
  | c :: cs => if isNameStart c then some (c :: cs.takeWhile isWord, cs.dropWhile isWord) else none

/-- A class name, whose segments are divided by backslashes; it does not start with one. -/
def qualified? : List Char → Option (List Char × List Char)
  | [] => none
  | c :: cs =>
    if isNameStart c then some (c :: cs.takeWhile isQualified, cs.dropWhile isQualified) else none

/-- A class name that may start with a backslash, which is part of it. -/
def rooted? : List Char → Option (List Char × List Char)
  | '\\' :: cs => (qualified? cs).map fun p => ('\\' :: p.1, p.2)
  | cs => qualified? cs

/-- `text` without one leading character `c`, if it has it. -/
def skipChar (c : Char) : List Char → List Char
  | [] => []
  | d :: ds => if d = c then ds else d :: ds

theorem word?_length {word : String} {text rest : List Char} (h : word? word text = some rest) :
    text.length = word.toList.length + rest.length := by
  simp [Chars.after?_eq_some.1 h]

/-- A blank is read, and all that follow it. -/
theorem spaces?_eq_some {text rest : List Char} (h : spaces? text = some rest) :
    ∃ c cs, text = c :: cs ∧ isSpace c ∧ rest = skipSpaces cs := by
  cases text with
  | nil => simp [spaces?, Chars.afterOne?] at h
  | cons c cs =>
    simp only [spaces?, Chars.afterOne?] at h
    split at h
    next space => exact ⟨c, cs, rfl, space, (Option.some.inj h).symm⟩
    next => simp at h

theorem spaces?_length {text rest : List Char} (h : spaces? text = some rest) :
    rest.length < text.length := by
  obtain ⟨c, cs, rfl, _, rfl⟩ := spaces?_eq_some h
  exact Nat.lt_succ_of_le (List.dropWhile_sublist isSpace).length_le

/-- A lower-case word, matched without regard to case. -/
def foldedWord? : List Char → List Char → Option (List Char)
  | [], text => some text
  | _ :: _, [] => none
  | letter :: letters, c :: cs => if Text.sameLetter letter c then foldedWord? letters cs else none

theorem foldedWord?_length {word text rest : List Char} (h : foldedWord? word text = some rest) :
    text.length = word.length + rest.length := by
  induction word generalizing text with
  | nil => simp_all [foldedWord?]
  | cons letter letters ih =>
    cases text with
    | nil => simp [foldedWord?] at h
    | cons c cs =>
      simp only [foldedWord?] at h
      split at h
      · have := ih h
        simp only [List.length_cons]
        omega
      · simp at h

end ShopLint.Php
