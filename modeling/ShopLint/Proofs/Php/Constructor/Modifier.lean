import ShopLint.Php.Constructor
import ShopLint.Proofs.Php.ClassName
import ShopLint.Proofs.Php.Function.Declaration
import ShopLint.Proofs.Text.Case
import ShopLint.Proofs.Text.Trim

/-!
The modifiers of a promoted parameter. A visibility or `readonly` in any letter case is read together with
the blanks after it, and nothing is read as one where a type stands that only starts like it.
-/

namespace ShopLint.Php

/-- Blanks between the words of a parameter list. -/
abbrev Gap := { text : List Char // ∀ c ∈ text, isLead c }

/-- At least one blank. -/
abbrev Break := { text : List Char // text ≠ [] ∧ ∀ c ∈ text, isLead c }

def modifierWords : List String := ["public", "protected", "private", "readonly"]

/-- A visibility or `readonly`, in any letter case. -/
def IsModifier (word : List Char) : Prop := ∃ m ∈ modifierWords, Text.equalFold (String.ofList word) m

instance (word : List Char) : Decidable (IsModifier word) :=
  inferInstanceAs (Decidable (∃ m ∈ modifierWords, _))

structure Modifier where
  word : List Char
  after : Break
  isModifier : IsModifier word

def Modifier.text (m : Modifier) : List Char := m.word ++ m.after.1

/-! Characters that stand where a word ends -/

/-- What may stand after the modifiers or after a type: blanks and the marks before a name. -/
def isParamMark (c : Char) : Bool := isLead c || c ∈ "?&.$".toList

/-- The letters of the modifiers. -/
def modifierLetters : List Char := "publicprotectedprivatereadonly".toList

theorem isSpace_of_isLead {c : Char} (h : isLead c) : isSpace c := by
  simp only [isLead, Bool.or_eq_true, decide_eq_true_eq] at h
  rcases h with ((rfl | rfl) | rfl) | rfl <;> decide

theorem isParamMark_cases {c : Char} (h : isParamMark c) :
    isTypeChar c = false ∧ LetterCase.foldChar c ∉ modifierLetters := by
  simp only [isParamMark, isLead, Bool.or_eq_true, decide_eq_true_eq] at h
  rcases h with (((rfl | rfl) | rfl) | rfl) | mark
  any_goals decide
  · revert c
    decide

theorem isTypeChar_of_isTypeStart {c : Char} (h : isTypeStart c) : isTypeChar c := by
  simp only [isTypeStart, Bool.or_eq_true, decide_eq_true_eq] at h
  rcases h with start | rfl
  · simp [isTypeChar, isQualified_of_isWord (isWord_of_isNameStart start)]
  · decide

theorem isTypeChar_of_isQualified {c : Char} (h : isQualified c) : isTypeChar c := by
  simp [isTypeChar, h]

theorem toNat_of_isTypeChar {c : Char} (h : isTypeChar c) : 48 ≤ c.toNat ∧ c.toNat ≤ 124 := by
  simp only [isTypeChar, Bool.or_eq_true, decide_eq_true_eq] at h
  rcases h with inName | rfl
  · have := toNat_of_isQualified inName
    omega
  · decide

theorem isBlank_eq_false_of_isTypeChar {c : Char} (h : isTypeChar c) : isBlank c = false := by
  simp only [isTypeChar, Bool.or_eq_true, decide_eq_true_eq] at h
  rcases h with inName | rfl
  · exact isBlank_eq_false_of_isQualified inName
  · decide

theorem foldChar_ne_paren {c : Char} (h : isTypeChar c) : LetterCase.foldChar c ≠ '(' := by
  have ascii : ∀ code < 128, LetterCase.foldChar (Char.ofNat code) = '(' → code = 40 := by decide +kernel
  intro paren
  have bounds := toNat_of_isTypeChar h
  have code := ascii c.toNat (by omega) (by rwa [Char.ofNat_toNat])
  omega

/-! Modifiers -/

section

variable {word : List Char}

theorem isModifier_iff :
    IsModifier word ↔ word.map LetterCase.foldChar ∈ modifierWords.map String.toList := by
  have plain : ∀ m ∈ modifierWords, m.toList.map LetterCase.foldChar = m.toList := by decide
  simp only [IsModifier, Text.equalFold, String.toList_ofList, beq_iff_eq, List.mem_map]
  constructor
  · rintro ⟨m, mem, same⟩
    exact ⟨m, mem, by rw [same, plain m mem]⟩
  · rintro ⟨m, mem, same⟩
    exact ⟨m, mem, by rw [plain m mem, same]⟩

theorem IsModifier.ne_nil (h : IsModifier word) : word ≠ [] := by
  rintro rfl
  exact absurd (isModifier_iff.1 h) (by decide)

theorem IsModifier.letters (h : IsModifier word) : ∀ c ∈ word, LetterCase.foldChar c ∈ modifierLetters := by
  intro c mem
  have spelled : ∀ w ∈ modifierWords.map String.toList, ∀ d ∈ w, d ∈ modifierLetters := by decide
  exact spelled _ (isModifier_iff.1 h) _ (List.mem_map_of_mem mem)

/-- White space is no letter of a modifier. -/
theorem isBlank_eq_false_of_letter {c : Char} (h : LetterCase.foldChar c ∈ modifierLetters) :
    isBlank c = false := by
  rw [Bool.eq_false_iff]
  intro blank
  have letters : ∀ d ∈ modifierLetters, isBlank d = false := by decide
  rw [LetterCase.foldChar_of_isBlank blank] at h
  simp [letters c h] at blank

/-- A visibility is read, whatever its case, when it is not one for setting only. -/
theorem visibility?_append {after : List Char}
    (h : word.map LetterCase.foldChar ∈ ["public", "protected", "private"].map String.toList)
    (unset : foldedWord? "(set)".toList after = none) : visibility? (word ++ after) = some after := by
  have own {m : List Char} (same : word.map LetterCase.foldChar = m) :
      foldedWord? m (word ++ after) = some after := foldedWord?_eq_some_iff.2 ⟨word, rfl, same⟩
  have apart {m other : List Char} (same : word.map LetterCase.foldChar = m)
      (differ : ∀ more, ¬other <+: m ++ more) : foldedWord? other (word ++ after) = none := by
    rw [foldedWord?_eq_none_iff, List.map_append, same]
    exact differ _
  simp only [List.map_cons, List.map_nil, List.mem_cons, List.not_mem_nil, or_false] at h
  rcases h with same | same | same
  · simp only [visibility?, List.findSome?_cons, own same, unset, Option.getD_none]
  · have noPublic := apart same (show ∀ more, ¬"public".toList <+: _ by simp)
    simp only [visibility?, List.findSome?_cons, noPublic, own same, unset, Option.getD_none]
  · have noPublic := apart same (show ∀ more, ¬"public".toList <+: _ by simp)
    have noProtected := apart same (show ∀ more, ¬"protected".toList <+: _ by simp)
    simp only [visibility?, List.findSome?_cons, noPublic, noProtected, own same, unset, Option.getD_none]

theorem visibility?_readonly {after : List Char}
    (h : word.map LetterCase.foldChar = "readonly".toList) : visibility? (word ++ after) = none := by
  have apart {other : List Char} (differ : ∀ more, ¬other <+: "readonly".toList ++ more) :
      foldedWord? other (word ++ after) = none := by
    rw [foldedWord?_eq_none_iff, List.map_append, h]
    exact differ _
  have noPublic := apart (show ∀ more, ¬"public".toList <+: _ by simp)
  have noProtected := apart (show ∀ more, ¬"protected".toList <+: _ by simp)
  have noPrivate := apart (show ∀ more, ¬"private".toList <+: _ by simp)
  simp only [visibility?, List.findSome?_cons, noPublic, noProtected, noPrivate, List.findSome?_nil]

end

/-- A modifier is read together with the blanks after it. -/
theorem paramModifier?_text (m : Modifier) {rest : List Char}
    (starts : ∀ c, rest.head? = some c → ¬isSpace c) : paramModifier? (m.text ++ rest) = some rest := by
  obtain ⟨word, ⟨blanks, nonempty, leads⟩, isModifier⟩ := m
  have passed : spaces? (blanks ++ rest) = some rest :=
    spaces?_eq_some_iff.2 ⟨blanks, nonempty, fun c mem => isSpace_of_isLead (leads c mem), rfl, starts⟩
  have unset : foldedWord? "(set)".toList (blanks ++ rest) = none := by
    obtain ⟨b, bs, rfl⟩ := List.exists_cons_of_ne_nil nonempty
    have blank := isSpace_of_isLead (leads b List.mem_cons_self)
    rw [foldedWord?_eq_none_iff, List.cons_append, List.map_cons,
      LetterCase.foldChar_of_isBlank (isBlank_of_isSpace blank)]
    intro starts
    obtain rfl : '(' = b := (List.cons_prefix_cons.1 starts).1
    exact absurd blank (by decide)
  rw [Modifier.text, List.append_assoc, paramModifier?]
  have known : word.map LetterCase.foldChar ∈
      ["public", "protected", "private"].map String.toList ++ ["readonly".toList] :=
    isModifier_iff.1 isModifier
  rcases List.mem_append.1 known with visible | readonly
  · simp only [visibility?_append visible unset, passed]
  · have same := List.mem_singleton.1 readonly
    have own : foldedWord? "readonly".toList (word ++ (blanks ++ rest)) = some (blanks ++ rest) :=
      foldedWord?_eq_some_iff.2 ⟨word, rfl, same⟩
    simp only [visibility?_readonly same, own, passed]

/-- What is read as a modifier is one, and ends before a blank or an opening parenthesis. -/
theorem isModifier_of_paramModifier? {text rest : List Char} (h : paramModifier? text = some rest) :
    ∃ word c more, text = word ++ c :: more ∧ IsModifier word ∧ (isSpace c ∨ LetterCase.foldChar c = '(') := by
  have spelled {m : String} (known : m ∈ modifierWords) {after : List Char}
      (read : foldedWord? m.toList text = some after) : ∃ word, text = word ++ after ∧ IsModifier word := by
    obtain ⟨word, split, same⟩ := foldedWord?_eq_some_iff.1 read
    exact ⟨word, split, isModifier_iff.2 (same ▸ List.mem_map_of_mem known)⟩
  have blankFirst {after : List Char} (passed : spaces? after = some rest) :
      ∃ c more, after = c :: more ∧ isSpace c := by
    obtain ⟨blanks, nonempty, spaces, rfl, _⟩ := spaces?_eq_some_iff.1 passed
    obtain ⟨c, cs, rfl⟩ := List.exists_cons_of_ne_nil nonempty
    exact ⟨c, cs ++ rest, rfl, spaces c List.mem_cons_self⟩
  rw [paramModifier?] at h
  cases visible : visibility? text with
  | some after =>
    rw [visible] at h
    simp only [visibility?] at visible
    split at visible
    next => cases visible
    next inner found =>
      obtain ⟨m, listed, read⟩ := List.exists_of_findSome?_eq_some found
      obtain ⟨word, rfl, isModifier⟩ := spelled (List.mem_append_left ["readonly"] listed) read
      obtain rfl := Option.some.inj visible
      cases set : foldedWord? "(set)".toList inner with
      | none =>
        rw [set] at h
        obtain ⟨c, more, rfl, space⟩ := blankFirst h
        exact ⟨word, c, more, rfl, isModifier, .inl space⟩
      | some after =>
        obtain ⟨front, rfl, same⟩ := foldedWord?_eq_some_iff.1 set
        cases front with
        | nil => cases same
        | cons c cs => exact ⟨word, c, cs ++ after, rfl, isModifier, .inr (List.cons.inj same).1⟩
  | none =>
    simp only [visible] at h
    split at h
    next after read =>
      obtain ⟨word, rfl, isModifier⟩ := spelled (by decide) read
      obtain ⟨c, more, rfl, space⟩ := blankFirst h
      exact ⟨word, c, more, rfl, isModifier, .inl space⟩
    next => cases h

/-- Nothing is read as a modifier where a type stands that is none. -/
theorem paramModifier?_eq_none {type rest : List Char} (typed : ∀ c ∈ type, isTypeChar c)
    (h : ¬IsModifier type) (ends : ∀ c, rest.head? = some c → isParamMark c) :
    paramModifier? (type ++ rest) = none := by
  rw [Option.eq_none_iff_forall_ne_some]
  intro after read
  obtain ⟨word, c, more, split, isModifier, stops⟩ := isModifier_of_paramModifier? read
  have apart : word ≠ type := fun same => h (same ▸ isModifier)
  rcases List.append_eq_append_iff.1 split with ⟨extra, rfl, tail⟩ | ⟨extra, rfl, tail⟩
  · -- the modifier goes on where the type ends, but no letter stands there
    cases extra with
    | nil => exact apart (List.append_nil type)
    | cons d ds =>
      have mark := ends d (by rw [tail]; rfl)
      have letter := isModifier.letters d (List.mem_append_right type List.mem_cons_self)
      exact (isParamMark_cases mark).2 letter
  · -- the modifier ends within the type, where neither a blank nor a parenthesis stands
    cases extra with
    | nil => exact apart (List.append_nil word).symm
    | cons d ds =>
      obtain rfl : c = d := (List.cons.inj tail).1
      have inType := typed c (List.mem_append_right word List.mem_cons_self)
      rcases stops with space | paren
      · have blank := isBlank_of_isSpace space
        simp [isBlank_eq_false_of_isTypeChar inType] at blank
      · exact foldChar_ne_paren inType paren

/-- The text starts, and not with white space. -/
def Starts (text : List Char) : Prop := ∃ c more, text = c :: more ∧ isBlank c = false

theorem Starts.head {text : List Char} (h : Starts text) : ∀ c, text.head? = some c → isBlank c = false := by
  obtain ⟨c, more, rfl, blankless⟩ := h
  intro d first
  obtain rfl : c = d := Option.some.inj first
  exact blankless

theorem starts_modifiers (modifiers : List Modifier) {rest : List Char} (h : Starts rest) :
    Starts (modifiers.flatMap Modifier.text ++ rest) := by
  cases modifiers with
  | nil => exact h
  | cons m ms =>
    obtain ⟨c, cs, spelled⟩ := List.exists_cons_of_ne_nil m.isModifier.ne_nil
    refine ⟨c, cs ++ (m.after.1 ++ (ms.flatMap Modifier.text ++ rest)), ?_, ?_⟩
    · simp [Modifier.text, spelled]
    · apply isBlank_eq_false_of_letter
      exact m.isModifier.letters c (spelled ▸ List.mem_cons_self)

/-- All modifiers are passed over, up to where none is left. -/
theorem skipParamModifiers_append (modifiers : List Modifier) {rest : List Char} (starts : Starts rest)
    (h : paramModifier? rest = none) :
    skipParamModifiers (modifiers.flatMap Modifier.text ++ rest) = rest := by
  induction modifiers with
  | nil =>
    rw [List.flatMap_nil, List.nil_append, skipParamModifiers]
    split
    next found => rw [h] at found; cases found
    next => rfl
  | cons m ms ih =>
    have passed : paramModifier? (m.text ++ (ms.flatMap Modifier.text ++ rest)) =
        some (ms.flatMap Modifier.text ++ rest) := by
      apply paramModifier?_text
      intro c first space
      have blank := isBlank_of_isSpace space
      simp [(starts_modifiers ms starts).head c first] at blank
    rw [List.flatMap_cons, List.append_assoc, skipParamModifiers]
    split
    next after found =>
      obtain rfl := Option.some.inj (passed.symm.trans found)
      exact ih
    next none => rw [passed] at none; cases none

end ShopLint.Php
