import ShopLint.Php.Lexeme
import Mathlib.Data.List.TakeWhile

/-!
What the readers of the smallest pieces accept, said of the text: what stands before what they leave.
-/

namespace ShopLint

/-- What holds of every character of a text is decided by going through the text, not through all characters. -/
instance decidableForallMem (text : List Char) (p : Char → Prop) [DecidablePred p] :
    Decidable (∀ c ∈ text, p c) :=
  List.decidableBAll p text

theorem isBlank_of_isSpace {c : Char} (h : isSpace c) : isBlank c := by
  simp only [isSpace, Bool.or_eq_true, decide_eq_true_eq] at h
  rcases h with (((rfl | rfl) | rfl) | rfl) | rfl <;> decide

namespace Php

/-- What is left starts with something that is not skipped. -/
theorem not_of_head?_dropWhile {α : Type} {p : α → Bool} {items : List α} {item : α}
    (h : (items.dropWhile p).head? = some item) : ¬p item := by
  have stops := List.head?_dropWhile_not p items
  rw [h] at stops
  simpa using stops

theorem skipSpaces_of_head {text : List Char} (h : ∀ c, text.head? = some c → ¬isSpace c) :
    skipSpaces text = text := by
  cases text with
  | nil => rfl
  | cons c cs => exact List.dropWhile_cons_of_neg (h c rfl)

/-- What `spaces?` leaves stands after at least one blank and starts with none. -/
theorem spaces?_eq_some_iff {text rest : List Char} :
    spaces? text = some rest ↔ ∃ blanks, blanks ≠ [] ∧ (∀ c ∈ blanks, isSpace c) ∧
      text = blanks ++ rest ∧ ∀ c, rest.head? = some c → ¬isSpace c := by
  constructor
  · intro h
    obtain ⟨c, cs, rfl, space, rfl⟩ := spaces?_eq_some h
    refine ⟨c :: cs.takeWhile isSpace, List.cons_ne_nil _ _, ?_, ?_, ?_⟩
    · exact List.forall_mem_cons.2 ⟨space, fun d mem => List.mem_takeWhile_imp mem⟩
    · rw [skipSpaces, List.cons_append, List.takeWhile_append_dropWhile]
    · exact fun d first => not_of_head?_dropWhile first
  · rintro ⟨blanks, nonempty, spaces, rfl, stops⟩
    obtain ⟨c, cs, rfl⟩ := List.exists_cons_of_ne_nil nonempty
    obtain ⟨space, others⟩ := List.forall_mem_cons.1 spaces
    have kept := skipSpaces_of_head stops
    rw [skipSpaces] at kept
    simp only [spaces?, List.cons_append, Chars.afterOne?, if_pos space, Option.map_some, skipSpaces,
      List.dropWhile_append_of_pos others, kept]

theorem skipSpaces_append {blanks : List Char} (h : ∀ c ∈ blanks, isSpace c) (text : List Char) :
    skipSpaces (blanks ++ text) = skipSpaces text := List.dropWhile_append_of_pos h

theorem eq_skipSpaces_of_spaces? {text rest : List Char} (h : spaces? text = some rest) :
    rest = skipSpaces text := by
  obtain ⟨blanks, _, spaces, rfl, stops⟩ := spaces?_eq_some_iff.1 h
  rw [skipSpaces_append spaces, skipSpaces_of_head stops]

/-- Blanks may stand before what `skipSpaces` leaves. -/
theorem exists_skipSpaces (text : List Char) :
    ∃ blanks, text = blanks ++ skipSpaces text ∧ ∀ c ∈ blanks, isSpace c :=
  ⟨text.takeWhile isSpace, List.takeWhile_append_dropWhile.symm, fun _ mem => List.mem_takeWhile_imp mem⟩

/-- A word matched without regard to case is spelled with letters that differ in case only. -/
theorem foldedWord?_eq_some_iff {word text rest : List Char} :
    foldedWord? word text = some rest ↔
      ∃ front, text = front ++ rest ∧ front.map LetterCase.foldChar = word := by
  induction word generalizing text with
  | nil => simp [foldedWord?, eq_comm]
  | cons letter letters ih =>
    cases text with
    | nil =>
      simp only [foldedWord?, reduceCtorEq, false_iff]
      rintro ⟨front, split, spelled⟩
      rw [(List.append_eq_nil_iff.1 split.symm).1] at spelled
      cases spelled
    | cons c cs =>
      simp only [foldedWord?, Text.sameLetter, beq_iff_eq]
      constructor
      · intro h
        split at h
        next same =>
          obtain ⟨front, rfl, rfl⟩ := ih.1 h
          exact ⟨c :: front, rfl, by rw [List.map_cons, same]⟩
        next => cases h
      · rintro ⟨front, split, spelled⟩
        cases front with
        | nil => cases spelled
        | cons d front =>
          rw [List.cons_append, List.cons.injEq] at split
          rw [List.map_cons, List.cons.injEq] at spelled
          rw [if_pos (split.1 ▸ spelled.1)]
          exact ih.2 ⟨front, split.2, spelled.2⟩

theorem foldedWord?_eq_none_iff {word text : List Char} :
    foldedWord? word text = none ↔ ¬word <+: text.map LetterCase.foldChar := by
  rw [Option.eq_none_iff_forall_ne_some, List.prefix_map_iff]
  constructor
  · rintro unread ⟨front, ⟨rest, rfl⟩, rfl⟩
    exact unread rest (foldedWord?_eq_some_iff.2 ⟨front, rfl, rfl⟩)
  · rintro apart rest read
    obtain ⟨front, rfl, rfl⟩ := foldedWord?_eq_some_iff.1 read
    exact apart ⟨front, List.prefix_append front rest, rfl⟩

/-- The spelling of an identifier. -/
def IsIdentifier (name : List Char) : Prop :=
  ∃ c cs, name = c :: cs ∧ isNameStart c ∧ ∀ d ∈ cs, isWord d

instance (name : List Char) : Decidable (IsIdentifier name) :=
  match name with
  | [] => isFalse fun ⟨_, _, eq, _⟩ => List.cons_ne_nil _ _ eq.symm
  | c :: cs => decidable_of_iff (isNameStart c ∧ ∀ d ∈ cs, isWord d)
      ⟨fun h => ⟨c, cs, rfl, h⟩, fun ⟨_, _, eq, h⟩ => by obtain ⟨rfl, rfl⟩ := List.cons.inj eq; exact h⟩

theorem IsIdentifier.isQualified {name : List Char} (h : IsIdentifier name) : ∀ c ∈ name, isQualified c := by
  obtain ⟨c, cs, rfl, start, others⟩ := h
  refine List.forall_mem_cons.2 ⟨isQualified_of_isWord (isWord_of_isNameStart start), fun d mem => ?_⟩
  exact isQualified_of_isWord (others d mem)

/-- An identifier is read as far as it goes. -/
theorem identifier?_eq_some_iff {text name rest : List Char} :
    identifier? text = some (name, rest) ↔
      text = name ++ rest ∧ IsIdentifier name ∧ ∀ c, rest.head? = some c → ¬isWord c := by
  constructor
  · intro h
    cases text with
    | nil => cases h
    | cons c cs =>
      simp only [identifier?] at h
      split at h
      next start =>
        obtain ⟨rfl, rfl⟩ := Prod.mk.inj (Option.some.inj h)
        refine ⟨?_, ⟨c, _, rfl, start, fun d mem => List.mem_takeWhile_imp mem⟩,
          fun d first => not_of_head?_dropWhile first⟩
        rw [List.cons_append, List.takeWhile_append_dropWhile]
      next => cases h
  · rintro ⟨rfl, ⟨c, cs, rfl, start, others⟩, stops⟩
    have ends : rest.takeWhile isWord = [] ∧ rest.dropWhile isWord = rest := by
      cases rest with
      | nil => exact ⟨rfl, rfl⟩
      | cons d ds =>
        exact ⟨List.takeWhile_cons_of_neg (stops d rfl), List.dropWhile_cons_of_neg (stops d rfl)⟩
    rw [List.cons_append, identifier?, if_pos start, List.takeWhile_append_of_pos others,
      List.dropWhile_append_of_pos others, ends.1, ends.2, List.append_nil]

end Php

end ShopLint
