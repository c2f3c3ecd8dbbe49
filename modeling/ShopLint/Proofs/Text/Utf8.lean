import ShopLint.Text.Utf8

/-!
Texts are read back from their bytes, whatever stray bytes are read as. What those are read as makes no
difference to where lines end.
-/

namespace ShopLint.Utf8

theorem toNat_ofNat_of_lt {n : Nat} (h : n < 256) : (UInt8.ofNat n).toNat = n := by
  rw [UInt8.toNat_ofNat', Nat.mod_eq_of_lt h]

section

variable (n : Nat)

/-- Bytes after the first of a character hold six bits each. -/
theorem isTail_ofNat : isTail (UInt8.ofNat (n % 64 + 128)) = true := by
  have value := toNat_ofNat_of_lt (show n % 64 + 128 < 256 by omega)
  simp only [isTail, Bool.and_eq_true, decide_eq_true_eq, UInt8.le_iff_toNat_le, UInt8.lt_iff_toNat_lt,
    value, UInt8.reduceToNat]
  omega

theorem tailBits_ofNat : tailBits (UInt8.ofNat (n % 64 + 128)) = n % 64 := by
  have value := toNat_ofNat_of_lt (show n % 64 + 128 < 256 by omega)
  unfold tailBits
  omega

end

/-- The first byte of a character tells how many belong to it, and together they tell its code. -/
theorem code?_encodeChar (c : Char) (rest : List UInt8) :
    ∃ first more, String.utf8EncodeChar c = first :: more ∧
      code? first (more ++ rest) = some (c.toNat, more.length) := by
  have valid : c.toNat < 0xD800 ∨ 0xDFFF < c.toNat ∧ c.toNat < 0x110000 := c.valid
  unfold String.utf8EncodeChar
  rw [show c.val.toNat = c.toNat from rfl]
  generalize c.toNat = v at valid
  dsimp only
  -- by the number of bytes; the digits of the code to base 64 are put together again
  split
  next one =>
    have value := toNat_ofNat_of_lt (show v < 256 by omega)
    refine ⟨_, [], rfl, ?_⟩
    simp only [code?, UInt8.lt_iff_toNat_lt, value, UInt8.reduceToNat]
    exact if_pos (by omega)
  split
  next many two =>
    have value := toNat_ofNat_of_lt (show v / 64 % 32 + 192 < 256 by omega)
    refine ⟨_, [_], rfl, ?_⟩
    have range : 194 ≤ v / 64 % 32 + 192 ∧ v / 64 % 32 + 192 < 224 := by omega
    simp only [code?, UInt8.lt_iff_toNat_lt, UInt8.le_iff_toNat_le, value, List.cons_append, List.nil_append,
      isTail_ofNat, tailBits_ofNat, UInt8.reduceToNat, range, decide_true, Bool.and_self, if_true, Bool.not_true,
      Bool.false_eq_true, if_false, List.length_singleton]
    rw [if_neg (by omega), Option.some.injEq, Prod.mk.injEq]
    exact ⟨by omega, rfl⟩
  split
  next many three =>
    have value := toNat_ofNat_of_lt (show v / 4096 % 16 + 224 < 256 by omega)
    refine ⟨_, [_, _], rfl, ?_⟩
    have range : ¬v / 4096 % 16 + 224 < 224 ∧ 224 ≤ v / 4096 % 16 + 224 ∧ v / 4096 % 16 + 224 < 240 := by omega
    have whole : (v / 4096 % 16 + 224 - 224) * 4096 + v / 64 % 64 * 64 + v % 64 = v := by omega
    simp only [code?, UInt8.lt_iff_toNat_lt, UInt8.le_iff_toNat_le, value, List.cons_append, List.nil_append,
      isTail_ofNat, tailBits_ofNat, UInt8.reduceToNat, range, decide_true, decide_false, Bool.and_false,
      Bool.and_self, if_true, Bool.not_true, Bool.false_eq_true, if_false, whole]
    rw [if_neg (by omega), if_neg]
    · rfl
    · simp only [Bool.or_eq_true, Bool.and_eq_true, decide_eq_true_eq]
      omega
  next many =>
    have value := toNat_ofNat_of_lt (show v / 262144 % 8 + 240 < 256 by omega)
    refine ⟨_, [_, _, _], rfl, ?_⟩
    have range : ¬v / 262144 % 8 + 240 < 224 ∧ ¬v / 262144 % 8 + 240 < 240 ∧ 240 ≤ v / 262144 % 8 + 240 := by
      omega
    have whole : (v / 262144 % 8 + 240 - 240) * 262144 + v / 4096 % 64 * 4096 + v / 64 % 64 * 64 + v % 64 = v := by
      omega
    simp only [code?, UInt8.lt_iff_toNat_lt, UInt8.le_iff_toNat_le, value, List.cons_append, List.nil_append,
      isTail_ofNat, tailBits_ofNat, UInt8.reduceToNat, range, decide_true, decide_false, Bool.and_false,
      Bool.not_true, Bool.or_self, Bool.false_eq_true, if_false, whole]
    rw [if_neg (by omega), if_neg]
    · rfl
    · simp only [Bool.or_eq_true, decide_eq_true_eq]
      omega

variable {stray other : Char}

theorem decodeFrom_append (skipped rest : List UInt8) :
    decodeFrom stray skipped.length (skipped ++ rest) = decodeFrom stray 0 rest := by
  induction skipped with
  | nil => rfl
  | cons byte skipped ih => exact ih

theorem decodeFrom_encodeChar (c : Char) (rest : List UInt8) :
    decodeFrom stray 0 (String.utf8EncodeChar c ++ rest) = c :: decodeFrom stray 0 rest := by
  obtain ⟨first, more, bytes, code⟩ := code?_encodeChar c rest
  rw [bytes, List.cons_append, decodeFrom, code]
  simp only [decodeFrom_append, Char.ofNat_toNat]

/-- A text is read back from its bytes. -/
@[simp] theorem decode_encode (stray : Char) (text : String) : decode stray (encode text) = text := by
  have read (chars : List Char) :
      decodeFrom stray 0 (chars.flatMap String.utf8EncodeChar) = chars := by
    induction chars with
    | nil => rfl
    | cons c chars ih => rw [List.flatMap_cons, decodeFrom_encodeChar, ih]
  rw [decode, encode, read, String.ofList_toList]

/-- Stray bytes count as no character that neither reading takes them for. -/
theorem count_decode {c : Char} (strange : stray ≠ c) (strange' : other ≠ c) (bytes : List UInt8) :
    (decode stray bytes).toList.count c = (decode other bytes).toList.count c := by
  have same (skip : Nat) : (decodeFrom stray skip bytes).count c = (decodeFrom other skip bytes).count c := by
    induction bytes generalizing skip with
    | nil => simp only [decodeFrom]
    | cons byte rest ih =>
      cases skip with
      | succ skip => exact ih skip
      | zero =>
        simp only [decodeFrom]
        cases code? byte rest with
        | some found => simp only [List.count_cons, ih]
        | none => simp only [List.count_cons, ih, beq_false_of_ne strange, beq_false_of_ne strange']
  simp only [decode, String.toList_ofList, same]

end ShopLint.Utf8
