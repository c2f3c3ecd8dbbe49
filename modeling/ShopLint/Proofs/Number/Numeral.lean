import ShopLint.Number.Decimal
import Mathlib.Tactic.IntervalCases

/-!
Numerals of whole numbers. What is printed is digits only, starts with a zero for zero alone, and
stands for the number it was printed from.
-/

namespace ShopLint.Decimal

theorem toList_toString (n : Nat) : (toString n).toList = Nat.toDigits 10 n := by
  rw [Nat.toString_eq_ofList_toDigits, String.toList_ofList]

theorem toList_toString_neg (n : Nat) :
    (toString (Int.negSucc n)).toList = '-' :: (toString (n + 1)).toList := by
  rw [show toString (Int.negSucc n) = "-" ++ toString (n + 1) from rfl, String.toList_append]
  rfl

theorem isDigitChar_of_mem_toString {n : Nat} {c : Char} (h : c ∈ (toString n).toList) :
    isDigitChar c := by
  rw [toList_toString] at h
  exact Nat.isDigit_of_mem_toDigits (by decide) (by decide) h

theorem toList_toString_ne_nil (n : Nat) : (toString n).toList ≠ [] := by
  rw [toList_toString]
  exact Nat.toDigits_ne_nil

/-- The numeral of a number that is not negative starts with a digit and so with no sign. -/
theorem head_toString (n : Nat) :
    ∃ c cs, (toString n).toList = c :: cs ∧ isDigitChar c ∧ c ≠ '-' := by
  obtain ⟨c, cs, eq⟩ := List.exists_cons_of_ne_nil (toList_toString_ne_nil n)
  have digit : isDigitChar c := isDigitChar_of_mem_toString (eq ▸ List.mem_cons_self)
  refine ⟨c, cs, eq, digit, ?_⟩
  rintro rfl
  exact absurd digit (by decide)

theorem ofDigits_toString (n : Nat) : ofDigits (toString n).toList = n := by
  rw [toList_toString]
  exact Nat.ofDigitChars_ten_toDigits

/-- Zeros in front of digits change nothing. -/
theorem ofDigits_zeros_append (k : Nat) (digits : List Char) :
    ofDigits (List.replicate k '0' ++ digits) = ofDigits digits := by
  have zeros : ofDigits (List.replicate k '0') = 0 := by
    have scaled : ofDigits (List.replicate k '0') = 10 ^ k * 0 := Nat.ofDigitChars_replicate_zero
    rw [scaled, Nat.mul_zero]
  calc ofDigits (List.replicate k '0' ++ digits)
      = Nat.ofDigitChars 10 digits (ofDigits (List.replicate k '0')) := Nat.ofDigitChars_append 0
    _ = ofDigits digits := by rw [zeros]; rfl

theorem length_toString_le_iff {n width : Nat} (h : 0 < width) :
    (toString n).toList.length ≤ width ↔ n < 10 ^ width := by
  rw [toList_toString]
  exact Nat.length_toDigits_le_iff (by decide) h

/-- Only the numeral of zero starts with a zero. -/
theorem head_toString_ne_zero {n : Nat} (h : 0 < n) :
    ∃ c cs, (toString n).toList = c :: cs ∧ c ≠ '0' := by
  simp only [toList_toString]
  induction n using Nat.strongRecOn with
  | ind n ih =>
    rw [Nat.toDigits_eq_if (by decide)]
    split
    next small =>
      refine ⟨_, [], rfl, ?_⟩
      interval_cases n <;> decide
    next large =>
      obtain ⟨c, cs, eq, ne⟩ := ih (n / 10) (by omega) (by omega)
      exact ⟨c, cs ++ [Nat.digitChar (n % 10)], by rw [eq]; rfl, ne⟩

end ShopLint.Decimal
