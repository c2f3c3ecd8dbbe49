import ShopLint.Json.Quoted

/-!
Quoted text read back. Each character of the text has one escape, which is read as that character
whatever follows it.
-/

namespace ShopLint.Json

theorem hexValue?_digitChar {k : Nat} (h : k < 16) : hexValue? (Nat.digitChar k) = some k := by
  have all : ∀ k : Fin 16, hexValue? (Nat.digitChar k) = some k.val := by decide
  exact all ⟨k, h⟩

/-- Four digits written are the number read. -/
theorem hexDigits_four {n : Nat} (h : n < 0x10000) :
    ∃ a b c d, Text.hexDigits 4 n = [a, b, c, d] ∧ hex4? a b c d = some n := by
  refine ⟨_, _, _, _, rfl, ?_⟩
  have digit (k : Nat) := hexValue?_digitChar (Nat.mod_lt k (by decide : 16 > 0))
  simp only [hex4?, digit, Option.bind_eq_bind, Option.bind_some, Option.pure_def, Option.some.injEq]
  omega

/-! Numbered escapes -/

/-- A numbered escape starts here. -/
def AtNumbered (text : List Char) : Prop :=
  ∃ a b c d rest, text = '\\' :: 'u' :: a :: b :: c :: d :: rest

theorem unquote?_numbered_apart (a b c d : Char) {rest : List Char} (apart : ¬AtNumbered rest) :
    unquote? ('\\' :: 'u' :: a :: b :: c :: d :: rest) =
      (hex4? a b c d).bind fun n => (unquote? rest).map fun p => (unitChar n :: p.1, p.2) := by
  rw [unquote?.eq_3 _ _ _ _ _ _ fun e f g h tail eq => apart ⟨e, f, g, h, tail, eq⟩]
  cases hex4? a b c d <;> rfl

theorem unquote?_numbered_invalid {a b c d : Char} (h : hex4? a b c d = none) (rest : List Char) :
    unquote? ('\\' :: 'u' :: a :: b :: c :: d :: rest) = none := by
  by_cases another : AtNumbered rest
  · obtain ⟨_, _, _, _, _, rfl⟩ := another
    simp [unquote?.eq_2, h]
  · rw [unquote?_numbered_apart _ _ _ _ another, h]
    rfl

/-- A number that is not the first of a pair stands for a character of its own, also where the next
character is written by number. -/
theorem unquote?_numbered {a b c d : Char} {n : Nat} (digits : hex4? a b c d = some n)
    (single : isHighSurrogate n = false) (rest : List Char) :
    unquote? ('\\' :: 'u' :: a :: b :: c :: d :: rest) =
      (unquote? rest).map fun p => (unitChar n :: p.1, p.2) := by
  by_cases another : AtNumbered rest
  · obtain ⟨e, f, g, h, tail, rfl⟩ := another
    cases next : hex4? e f g h with
    | none => simp [unquote?.eq_2, digits, next, unquote?_numbered_invalid next]
    | some m => simp [unquote?.eq_2, digits, next, single]
  · rw [unquote?_numbered_apart _ _ _ _ another, digits]
    rfl

/-! One character -/

theorem unquote?_short {letter c : Char} (h : shortEscape? letter = some c) (rest : List Char) :
    unquote? ('\\' :: letter :: rest) = (unquote? rest).map fun p => (c :: p.1, p.2) := by
  have letter_ne : letter ≠ 'u' := by
    rintro rfl
    simp [shortEscape?] at h
  rw [unquote?.eq_4 _ _ _ (fun _ _ _ _ _ _ _ _ _ eq => absurd eq letter_ne)
    (fun _ _ _ _ _ eq => absurd eq letter_ne)]
  simp [h]

theorem unquote?_plain {c : Char} (quote : c ≠ '"') (control : ¬c.toNat < 32) (escape : c ≠ '\\')
    (rest : List Char) : unquote? (c :: rest) = (unquote? rest).map fun p => (c :: p.1, p.2) := by
  rw [unquote?.eq_def]
  simp only [if_neg quote, if_neg control, if_neg escape]

theorem unquote?_numbered_char {c : Char} (h : c.toNat < 0xD800) (rest : List Char) :
    unquote? (numbered c ++ rest) = (unquote? rest).map fun p => (c :: p.1, p.2) := by
  obtain ⟨x, y, z, w, written, read⟩ := hexDigits_four (Nat.lt_trans h (by decide))
  have single : isHighSurrogate c.toNat = false := by simp [isHighSurrogate]; omega
  have same : unitChar c.toNat = c := by
    rw [unitChar, if_neg (by simp; omega), Char.ofNat_toNat]
  rw [numbered, written, List.append_assoc]
  exact (unquote?_numbered read single rest).trans (by rw [same])

/-- The three ways in which a character is written. -/
theorem escapeChar_cases (c : Char) :
    (∃ letter, escapeChar c = ['\\', letter] ∧ shortEscape? letter = some c) ∨
    (escapeChar c = numbered c ∧ c.toNat < 0xD800) ∨
    (escapeChar c = [c] ∧ c ≠ '"' ∧ ¬c.toNat < 32 ∧ c ≠ '\\') := by
  unfold escapeChar
  -- the seven characters that have a letter
  iterate 7 (split; next is => subst is; exact .inl ⟨_, rfl, rfl⟩)
  split
  next special =>
    refine .inr (.inl ⟨rfl, ?_⟩)
    simp only [Bool.or_eq_true, decide_eq_true_eq] at special
    rcases special with ((((control | rfl) | rfl) | rfl) | rfl) | rfl <;> first | decide | omega
  next quote escape _ _ _ _ _ plain =>
    simp only [Bool.or_eq_true, decide_eq_true_eq, not_or] at plain
    exact .inr (.inr ⟨rfl, quote, plain.1.1.1.1.1, escape⟩)

theorem unquote?_escapeChar (c : Char) (rest : List Char) :
    unquote? (escapeChar c ++ rest) = (unquote? rest).map fun p => (c :: p.1, p.2) := by
  rcases escapeChar_cases c with ⟨letter, written, means⟩ | ⟨written, low⟩ |
    ⟨written, quote, control, escape⟩
  · rw [written]
    exact unquote?_short means rest
  · rw [written]
    exact unquote?_numbered_char low rest
  · rw [written]
    exact unquote?_plain quote control escape rest

/-! Whole texts -/

theorem unquote?_escaped (text rest : List Char) :
    unquote? (text.flatMap escapeChar ++ '"' :: rest) = some (text, rest) := by
  induction text with
  | nil => rw [List.flatMap_nil, List.nil_append, unquote?.eq_def]; rfl
  | cons c text ih => rw [List.flatMap_cons, List.append_assoc, unquote?_escapeChar, ih]; rfl

end ShopLint.Json
