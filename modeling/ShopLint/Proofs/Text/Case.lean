import ShopLint.Text.Basic
import ShopLint.Text.Case

/-!
Lower case. Taking it twice is taking it once, since the table of capitals leads to nothing that is in
the table again; and it takes neither white space to anything else nor anything else to white space.
-/

namespace ShopLint

namespace CaseTable

/-- The code point is one of those that the range maps. -/
def Range.Holds (r : Range) (code : Nat) : Prop :=
  r.lo ≤ code ∧ code ≤ r.hi ∧ (code - r.lo) % r.step = 0

theorem apply_cases (ranges : List Range) (code : Nat) :
    (apply ranges code = code ∧ ∀ r ∈ ranges, ¬r.Holds code) ∨
    ∃ r ∈ ranges, r.Holds code ∧ apply ranges code = (code + r.delta).toNat := by
  unfold apply
  cases found : ranges.find? fun r => r.lo ≤ code && code ≤ r.hi && (code - r.lo) % r.step == 0 with
  | some r =>
    have holds := List.find?_some found
    simp only [Bool.and_eq_true, decide_eq_true_eq, beq_iff_eq, and_assoc] at holds
    exact .inr ⟨r, List.mem_of_find?_eq_some found, holds, rfl⟩
  | none =>
    refine .inl ⟨rfl, fun r mem holds => ?_⟩
    have fails := List.find?_eq_none.1 found r mem
    simp only [Bool.and_eq_true, decide_eq_true_eq, beq_iff_eq, and_assoc] at fails
    exact fails holds

/-- The image of the first code point of a range. -/
def Range.imageLo (r : Range) : Nat := (r.lo + r.delta).toNat

/-- The image of the last code point of a range. -/
def Range.imageHi (r : Range) : Nat := (r.hi + r.delta).toNat

/-- No image is one of the code points of `s`: the images come before or after `s`, or fall into the
gaps of `s`. -/
def Range.avoids (r s : Range) : Bool :=
  Nat.blt r.imageHi s.lo || Nat.blt s.hi r.imageLo ||
    (s.step == 2 && (r.step == 2 || r.imageLo == r.imageHi) && (r.imageLo + s.lo) % 2 == 1)

/-- The white space of Unicode: the first and the last code point of each stretch. -/
def blanks : List (Nat × Nat) :=
  [(9, 13), (32, 32), (0x85, 0x85), (0xa0, 0xa0), (0x1680, 0x1680), (0x2000, 0x200a), (0x2028, 0x2029),
    (0x202f, 0x202f), (0x205f, 0x205f), (0x3000, 0x3000)]

/-- The images of a range are characters, and neither they nor the range have white space among them. -/
def Range.isPlain (r : Range) : Bool :=
  0 ≤ r.lo + r.delta && (r.imageHi < 0xd800 || (0xdfff < r.imageLo && r.imageHi < 0x110000)) &&
    blanks.all fun b => (r.hi < b.1 || b.2 < r.lo) && (r.imageHi < b.1 || b.2 < r.imageLo)

theorem lower_avoids : lower.all (fun r => lower.all r.avoids) = true := by decide +kernel

theorem lower_isPlain : lower.all Range.isPlain = true := by decide +kernel

section

variable {r s : Range} {code : Nat}

theorem Range.Holds.image_bounds (h : r.Holds code) :
    r.imageLo ≤ (code + r.delta).toNat ∧ (code + r.delta).toNat ≤ r.imageHi := by
  obtain ⟨lower, upper, _⟩ := h
  simp only [imageLo, imageHi]
  omega

theorem Range.Holds.not_holds_image (h : r.Holds code) (nonneg : 0 ≤ r.lo + r.delta)
    (apart : r.avoids s) : ¬s.Holds (code + r.delta).toNat := by
  obtain ⟨above, below⟩ := h.image_bounds
  obtain ⟨lower, upper, place⟩ := h
  rintro ⟨lower', upper', place'⟩
  simp only [avoids, Bool.or_eq_true, Bool.and_eq_true, Nat.blt_eq, beq_iff_eq] at apart
  rcases apart with (before | after) | ⟨⟨gaps, even | single⟩, odd⟩
  · omega
  · omega
  · rw [gaps] at place'
    rw [even] at place
    simp only [imageLo] at odd
    omega
  · rw [gaps] at place'
    omega

end

/-- What lower case leads to is a character that stays as it is. -/
theorem apply_lower_image {r : Range} (mem : r ∈ lower) {code : Nat} (holds : r.Holds code) :
    ((code + r.delta).toNat).isValidChar ∧
      apply lower (code + r.delta).toNat = (code + r.delta).toNat := by
  have plain := List.all_eq_true.1 lower_isPlain r mem
  simp only [Range.isPlain, Bool.and_eq_true, Bool.or_eq_true, decide_eq_true_eq] at plain
  obtain ⟨⟨nonneg, valid⟩, _⟩ := plain
  obtain ⟨above, below⟩ := holds.image_bounds
  refine ⟨?_, ?_⟩
  · simp only [Nat.isValidChar]
    omega
  · rcases apply_cases lower (code + r.delta).toNat with ⟨fixed, _⟩ | ⟨s, mem', holds', _⟩
    · exact fixed
    · have apart := List.all_eq_true.1 (List.all_eq_true.1 lower_avoids r mem) s mem'
      exact absurd holds' (holds.not_holds_image nonneg apart)

end CaseTable

namespace LetterCase

/-- Within ASCII the table has the capital letters, and nothing else. -/
theorem lower_ascii : CaseTable.lower.all (fun r =>
    (r.lo == 65 && r.hi == 90 && r.step == 1 && r.delta == 32) || 128 ≤ r.lo) = true := by
  decide +kernel

theorem toLower_ascii : ∀ code < 128, (Char.ofNat code).toLower =
    Char.ofNat (if 65 ≤ code ∧ code ≤ 90 then code + 32 else code) := by decide +kernel

/-- The table holds for ASCII too. -/
theorem lowerChar_eq (c : Char) : lowerChar c = Char.ofNat (CaseTable.apply CaseTable.lower c.toNat) := by
  unfold lowerChar
  split
  next ascii =>
    have lowered := toLower_ascii c.toNat ascii
    rw [Char.ofNat_toNat] at lowered
    rw [lowered]
    congr 1
    rcases CaseTable.apply_cases CaseTable.lower c.toNat with ⟨fixed, none⟩ | ⟨r, mem, holds, image⟩
    · have small : ¬(65 ≤ c.toNat ∧ c.toNat ≤ 90) := by
        rintro ⟨above, below⟩
        exact none ⟨65, 90, 1, 32⟩ List.mem_cons_self ⟨above, below, Nat.mod_one _⟩
      rw [if_neg small, fixed]
    · have capital := List.all_eq_true.1 lower_ascii r mem
      simp only [Bool.or_eq_true, Bool.and_eq_true, beq_iff_eq, decide_eq_true_eq] at capital
      obtain ⟨lower, upper, _⟩ := holds
      rcases capital with ⟨⟨⟨first, last⟩, _⟩, delta⟩ | beyond
      · rw [image, if_pos (by omega)]
        omega
      · omega
  next => rfl

theorem toNat_ofNat {code : Nat} (valid : code.isValidChar) : (Char.ofNat code).toNat = code := by
  rw [Char.ofNat, dif_pos valid]
  rfl

/-- A character stays as it is in lower case, or a range of the table holds it and leads it to another,
which then stays. -/
theorem lowerChar_cases (c : Char) :
    lowerChar c = c ∨ ∃ r ∈ CaseTable.lower, r.Holds c.toNat ∧ (c.toNat + r.delta).toNat.isValidChar ∧
      lowerChar c = Char.ofNat (c.toNat + r.delta).toNat := by
  rw [lowerChar_eq]
  rcases CaseTable.apply_cases CaseTable.lower c.toNat with ⟨fixed, _⟩ | ⟨r, mem, holds, image⟩
  · exact .inl (by rw [fixed, Char.ofNat_toNat])
  · exact .inr ⟨r, mem, holds, (CaseTable.apply_lower_image mem holds).1, by rw [image]⟩

theorem lowerChar_lowerChar (c : Char) : lowerChar (lowerChar c) = lowerChar c := by
  rcases lowerChar_cases c with fixed | ⟨r, mem, holds, valid, image⟩
  · rw [fixed, fixed]
  · rw [image, lowerChar_eq, toNat_ofNat valid, (CaseTable.apply_lower_image mem holds).2]

theorem exists_of_isBlank {c : Char} (h : isBlank c) :
    ∃ b ∈ CaseTable.blanks, b.1 ≤ c.toNat ∧ c.toNat ≤ b.2 := by
  simp only [isBlank, Bool.or_eq_true, Bool.and_eq_true, decide_eq_true_eq, Char.le_def,
    UInt32.le_iff_toNat_le, or_assoc] at h
  rcases h with ⟨low, high⟩ | rfl | rfl | rfl | rfl | ⟨low, high⟩ | rfl | rfl | rfl | rfl | rfl
  · exact ⟨(9, 13), by decide, low, high⟩
  · decide
  · decide
  · decide
  · decide
  · exact ⟨(0x2000, 0x200a), by decide, low, high⟩
  all_goals decide

theorem foldChar_blanks : CaseTable.blanks.all (fun b =>
    (List.range' b.1 (b.2 - b.1 + 1)).all fun code => foldChar (Char.ofNat code) = Char.ofNat code) = true := by
  decide +kernel

/-- White space has no case. -/
theorem foldChar_of_isBlank {c : Char} (h : isBlank c) : foldChar c = c := by
  obtain ⟨b, stretch, low, high⟩ := exists_of_isBlank h
  have listed : c.toNat ∈ List.range' b.1 (b.2 - b.1 + 1) := by
    rw [List.mem_range'_1]
    omega
  have fixed := List.all_eq_true.1 (List.all_eq_true.1 foldChar_blanks b stretch) c.toNat listed
  simpa only [Char.ofNat_toNat, decide_eq_true_eq] using fixed

theorem isBlank_lowerChar (c : Char) : isBlank (lowerChar c) = isBlank c := by
  rcases lowerChar_cases c with fixed | ⟨r, mem, holds, valid, image⟩
  · rw [fixed]
  · have plain := List.all_eq_true.1 CaseTable.lower_isPlain r mem
    simp only [CaseTable.Range.isPlain, Bool.and_eq_true, List.all_eq_true, Bool.or_eq_true,
      decide_eq_true_eq] at plain
    obtain ⟨above, below⟩ := holds.image_bounds
    obtain ⟨lower, upper, _⟩ := holds
    have before : isBlank c = false := by
      rw [Bool.eq_false_iff]
      intro blank
      obtain ⟨b, stretch, low, high⟩ := exists_of_isBlank blank
      have := (plain.2 b stretch).1
      omega
    have after : isBlank (lowerChar c) = false := by
      rw [Bool.eq_false_iff, image]
      intro blank
      obtain ⟨b, stretch, low, high⟩ := exists_of_isBlank blank
      rw [toNat_ofNat valid] at low high
      have := (plain.2 b stretch).2
      omega
    rw [before, after]

end LetterCase

namespace Text

@[simp] theorem toLower_toLower (text : String) : toLower (toLower text) = toLower text := by
  simp only [toLower, String.toList_ofList, List.map_map]
  congr 1
  exact List.map_congr_left fun c _ => LetterCase.lowerChar_lowerChar c

theorem length_toLower (text : String) : (toLower text).length = text.length := by
  simp [toLower, String.length_toList]

theorem toLower_eq_empty_iff {text : String} : toLower text = "" ↔ text = "" := by
  simp [toLower]

/-- White space around a text is the same before and after. -/
theorem trim_toLower (text : String) : trim (toLower text) = toLower (trim text) := by
  have alike : isBlank ∘ LetterCase.lowerChar = isBlank := funext LetterCase.isBlank_lowerChar
  have dropped (chars : List Char) : (chars.map LetterCase.lowerChar).dropWhile isBlank =
      (chars.dropWhile isBlank).map LetterCase.lowerChar := by
    rw [List.dropWhile_map, alike]
  simp only [trim, toLower, Chars.trimWhile, Chars.dropRightWhile, String.toList_ofList]
  rw [dropped, ← List.map_reverse, dropped, ← List.map_reverse]

end Text

end ShopLint
