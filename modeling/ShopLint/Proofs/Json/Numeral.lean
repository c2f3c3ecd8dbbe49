import ShopLint.Json.Parser
import ShopLint.Proofs.Number.Numeral
import Mathlib.Data.List.TakeWhile

/-!
Whole numbers in JSON text. The numeral of a number is read as one literal wherever what follows
cannot be part of a number.
-/

namespace ShopLint.Json

/-- The character can stand inside a number. -/
def continuesNumber (c : Char) : Bool := isDecimal c || c = '.' || c = 'e' || c = 'E'

/-- A number that stands before the text ends there. -/
def EndsNumber (rest : List Char) : Prop := ∀ c ∈ rest.head?, continuesNumber c = false

theorem EndsNumber.nil : EndsNumber [] := by simp [EndsNumber]

theorem EndsNumber.cons {c : Char} (h : continuesNumber c = false) (rest : List Char) :
    EndsNumber (c :: rest) := by
  rintro _ ⟨⟩
  exact h

theorem EndsNumber.append {blanks rest : List Char} (blank : ∀ c ∈ blanks, isJsonBlank c)
    (h : EndsNumber rest) : EndsNumber (blanks ++ rest) := by
  cases blanks with
  | nil => exact h
  | cons c cs =>
    have among : isJsonBlank c := blank c List.mem_cons_self
    simp only [isJsonBlank, Bool.or_eq_true, decide_eq_true_eq] at among
    rcases among with ((rfl | rfl) | rfl) | rfl <;> exact .cons rfl _

theorem EndsNumber.takeWhile {rest : List Char} (h : EndsNumber rest) :
    rest.takeWhile isDecimal = [] ∧ rest.dropWhile isDecimal = rest := by
  cases rest with
  | nil => exact ⟨rfl, rfl⟩
  | cons c cs =>
    have ends := h c rfl
    simp only [continuesNumber, Bool.or_eq_false_iff] at ends
    have noDigit := ends.1.1.1
    simp [noDigit]

theorem EndsNumber.fractionPart? {rest : List Char} (h : EndsNumber rest) :
    fractionPart? rest = some ([], rest) := by
  unfold Json.fractionPart?
  split
  next cs => exact absurd (h '.' rfl) (by decide)
  next => rfl

theorem EndsNumber.exponentPart? {rest : List Char} (h : EndsNumber rest) :
    exponentPart? rest = some ([], rest) := by
  cases rest with
  | nil => rfl
  | cons c cs =>
    have ends := h c rfl
    simp only [continuesNumber, Bool.or_eq_false_iff] at ends
    have noMark : (decide (c = 'e') || decide (c = 'E')) = false := by
      rw [ends.1.2, ends.2]
      rfl
    simp only [Json.exponentPart?, noMark]
    rfl

theorem wholePart?_toString (n : Nat) {rest : List Char} (h : EndsNumber rest) :
    wholePart? ((toString n).toList ++ rest) = some ((toString n).toList, rest) := by
  by_cases zero : n = 0
  · subst zero
    rfl
  · obtain ⟨c, cs, eq, nonzero⟩ := Decimal.head_toString_ne_zero (Nat.pos_of_ne_zero zero)
    have digits : ∀ d ∈ c :: cs, isDecimal d := by
      intro d mem
      exact Decimal.isDigitChar_of_mem_toString (eq ▸ mem)
    have first : isDecimal c := digits c List.mem_cons_self
    have others : ∀ d ∈ cs, isDecimal d := fun d mem => digits d (List.mem_cons_of_mem _ mem)
    rw [eq, List.cons_append]
    simp only [wholePart?, if_neg nonzero, if_pos first, List.takeWhile_append_of_pos others,
      List.dropWhile_append_of_pos others, h.takeWhile.1, h.takeWhile.2, List.append_nil]

theorem number?_minus (cs : List Char) :
    number? ('-' :: cs) = (wholePart? cs).bind fun whole => (fractionPart? whole.2).bind fun fraction =>
      (exponentPart? fraction.2).map fun exponent =>
        (['-'] ++ whole.1 ++ fraction.1 ++ exponent.1, exponent.2) := by
  simp [number?, Option.map_eq_bind]

theorem number?_unsigned {c : Char} (h : c ≠ '-') (cs : List Char) :
    number? (c :: cs) = (wholePart? (c :: cs)).bind fun whole =>
      (fractionPart? whole.2).bind fun fraction => (exponentPart? fraction.2).map fun exponent =>
        (whole.1 ++ fraction.1 ++ exponent.1, exponent.2) := by
  unfold number?
  split
  next sign text eq =>
    split at eq
    next heq => exact absurd (List.cons.inj heq).1 h
    next =>
      cases eq
      simp [Option.map_eq_bind]

theorem number?_toString (n : Int) {rest : List Char} (h : EndsNumber rest) :
    number? ((toString n).toList ++ rest) = some ((toString n).toList, rest) := by
  cases n with
  | ofNat m =>
    rw [show toString (Int.ofNat m) = toString m from rfl]
    have whole := wholePart?_toString m h
    obtain ⟨c, digits, written, -, unsigned⟩ := Decimal.head_toString m
    rw [written, List.cons_append] at whole ⊢
    rw [number?_unsigned unsigned, whole]
    simp [h.fractionPart?, h.exponentPart?]
  | negSucc m =>
    rw [Decimal.toList_toString_neg, List.cons_append, number?_minus, wholePart?_toString _ h]
    simp [h.fractionPart?, h.exponentPart?]

end ShopLint.Json
