import ShopLint.Instant
import ShopLint.Proofs.Number.Numeral
import ShopLint.Text.Chars
import Mathlib.Data.List.TakeWhile

/-!
Times read back from their text. A time of the calendar on a clock of universal time, in a year of
four digits, is the time that its text stands for.
-/

namespace ShopLint.Instant

/-- A date of the calendar and a time of day in universal time, in a year of at most four digits. -/
structure IsUniversal (t : Instant) : Prop where
  year_lt : t.year < 10000
  month_pos : 0 < t.month
  month_le : t.month ≤ 12
  day_pos : 0 < t.day
  day_le : t.day ≤ daysIn t.year t.month
  hour_lt : t.hour < 24
  minute_lt : t.minute < 60
  second_lt : t.second < 60
  nanosecond_lt : t.nanosecond < 1000000000
  offset_eq : t.offset = 0

theorem daysIn_le (year month : Nat) : daysIn year month ≤ 31 := by
  simp only [daysIn]
  split <;> split <;> decide

/-! Numbers of a fixed width -/

theorem isDigitChar_of_mem_padded {width n : Nat} {c : Char} (h : c ∈ padded width n) :
    Decimal.isDigitChar c := by
  rcases List.mem_append.1 h with zero | digit
  · rw [List.eq_of_mem_replicate zero]
    rfl
  · exact Decimal.isDigitChar_of_mem_toString digit

theorem ofDigits_padded (width n : Nat) : Decimal.ofDigits (padded width n) = n := by
  simp only [padded]
  rw [Decimal.ofDigits_zeros_append, Decimal.ofDigits_toString]

theorem length_padded {width n : Nat} (pos : 0 < width) (fits : n < 10 ^ width) :
    (padded width n).length = width := by
  have short := (Decimal.length_toString_le_iff pos).2 fits
  simp only [padded, List.length_append, List.length_replicate]
  omega

theorem number?_padded {width n : Nat} (pos : 0 < width) (fits : n < 10 ^ width) (rest : List Char) :
    number? width (padded width n ++ rest) = some (n, rest) := by
  have length := length_padded pos fits
  have digits : (padded width n).all Decimal.isDigitChar :=
    List.all_eq_true.2 fun _ mem => isDigitChar_of_mem_padded mem
  simp [number?, List.take_left' length, List.drop_left' length, length, digits, ofDigits_padded]

theorem hour?_padded {n : Nat} (fits : n < 10 ^ 2) (rest : List Char) :
    hour? (padded 2 n ++ rest) = some (n, rest) := by
  rw [hour?, number?_padded (by decide) fits]

@[simp] theorem char?_cons (c : Char) (rest : List Char) : char? c (c :: rest) = some rest := if_pos rfl

/-! Fractions of a second -/

/-- The digits without the zeros at their end. -/
def significant (digits : List Char) : List Char := Chars.dropRightWhile (· = '0') digits

theorem significant_append_zeros (digits : List Char) :
    significant digits ++ List.replicate (digits.length - (significant digits).length) '0' = digits := by
  have zeros : digits.reverse.takeWhile (· = '0') =
      List.replicate (digits.reverse.takeWhile (· = '0')).length '0' := by
    refine List.eq_replicate_iff.2 ⟨rfl, fun c mem => ?_⟩
    simpa using List.mem_takeWhile_imp mem
  have parts : digits = significant digits ++ (digits.reverse.takeWhile (· = '0')).reverse := by
    rw [significant, Chars.dropRightWhile, ← List.reverse_append, List.takeWhile_append_dropWhile, List.reverse_reverse]
  have count : digits.length - (significant digits).length =
      (digits.reverse.takeWhile (· = '0')).length := by
    have := congrArg List.length parts
    simp only [List.length_append, List.length_reverse] at this
    omega
  rw [count, ← List.reverse_replicate, ← zeros, ← parts]

/-- The fraction that is read is the one that was written, at any text that starts with no digit. -/
theorem fraction?_fractionText {n : Nat} (fits : n < 10 ^ 9) {stop : Char} (rest : List Char)
    (apart : stop ≠ '.' ∧ stop ≠ ',' ∧ Decimal.isDigitChar stop = false) :
    fraction? (fractionText n ++ stop :: rest) = some (n, stop :: rest) := by
  obtain ⟨noPoint, noComma, noDigit⟩ := apart
  by_cases whole : n = 0
  · simp [fractionText, whole, fraction?, noPoint, noComma]
  · have length := length_padded (by decide) fits
    have restored := significant_append_zeros (padded 9 n)
    rw [length] at restored
    have short : (significant (padded 9 n)).length ≤ 9 := by
      have := congrArg List.length restored
      rw [List.length_append, length] at this
      omega
    have some_digit : significant (padded 9 n) ≠ [] := by
      intro none_left
      rw [none_left, List.nil_append] at restored
      have value := ofDigits_padded 9 n
      rw [← restored, ← List.append_nil (List.replicate _ _), Decimal.ofDigits_zeros_append] at value
      exact whole value.symm
    have digits : ∀ c ∈ significant (padded 9 n), Decimal.isDigitChar c := by
      intro c mem
      have kept : c ∈ padded 9 n := by
        rw [← restored]
        exact List.mem_append_left _ mem
      exact isDigitChar_of_mem_padded kept
    have taken : (significant (padded 9 n) ++ stop :: rest).takeWhile Decimal.isDigitChar =
        significant (padded 9 n) := by
      rw [List.takeWhile_append_of_pos digits, List.takeWhile_cons_of_neg (by simp [noDigit]),
        List.append_nil]
    rw [fractionText, if_neg whole]
    simp only [fraction?, List.cons_append]
    rw [show ((padded 9 n).reverse.dropWhile (· = '0')).reverse = significant (padded 9 n) from rfl, taken]
    simp [List.take_of_length_le short, restored, ofDigits_padded, some_digit]

/-! Whole texts -/

theorem toList_text (t : Instant) :
    t.text.toList = padded 4 t.year ++ '-' :: (padded 2 t.month ++ '-' :: (padded 2 t.day ++ 'T' ::
      (padded 2 t.hour ++ ':' :: (padded 2 t.minute ++ ':' :: (padded 2 t.second ++
        (fractionText t.nanosecond ++ offsetText t.offset)))))) := by
  simp only [text, String.toList_ofList, List.append_assoc, List.cons_append, List.nil_append]

theorem parse?_text {t : Instant} (h : t.IsUniversal) : parse? t.text = some t := by
  have day_lt := Nat.lt_of_le_of_lt (Nat.le_trans h.day_le (daysIn_le _ _)) (by decide : 31 < 100)
  have valid : ¬(t.month = 0 || 12 < t.month || t.day = 0 || daysIn t.year t.month < t.day ||
      23 < t.hour || 59 < t.minute || 59 < t.second) = true := by
    have ⟨_, _, _, _, _, _, _, _, _, _⟩ := h
    simp only [Bool.or_eq_true, decide_eq_true_eq]
    omega
  have two {n : Nat} (fits : n < 100) (rest : List Char) :
      number? 2 (padded 2 n ++ rest) = some (n, rest) := number?_padded (by decide) fits rest
  unfold parse?
  rw [toList_text, h.offset_eq]
  refine Option.bind_eq_some_iff.2 ⟨_, number?_padded (by decide) h.year_lt _, ?_⟩
  refine Option.bind_eq_some_iff.2 ⟨_, char?_cons '-' _, ?_⟩
  refine Option.bind_eq_some_iff.2 ⟨_, two (Nat.lt_of_le_of_lt h.month_le (by decide)) _, ?_⟩
  refine Option.bind_eq_some_iff.2 ⟨_, char?_cons '-' _, ?_⟩
  refine Option.bind_eq_some_iff.2 ⟨_, two day_lt _, ?_⟩
  refine Option.bind_eq_some_iff.2 ⟨_, char?_cons 'T' _, ?_⟩
  refine Option.bind_eq_some_iff.2 ⟨_, hour?_padded (Nat.lt_trans h.hour_lt (by decide)) _, ?_⟩
  refine Option.bind_eq_some_iff.2 ⟨_, char?_cons ':' _, ?_⟩
  refine Option.bind_eq_some_iff.2 ⟨_, two (Nat.lt_trans h.minute_lt (by decide)) _, ?_⟩
  refine Option.bind_eq_some_iff.2 ⟨_, char?_cons ':' _, ?_⟩
  refine Option.bind_eq_some_iff.2 ⟨_, two (Nat.lt_trans h.second_lt (by decide)) _, ?_⟩
  refine Option.bind_eq_some_iff.2 ⟨_, fraction?_fractionText h.nanosecond_lt [] (by decide), ?_⟩
  refine (if_neg valid).trans ?_
  rw [← h.offset_eq]

end ShopLint.Instant
