/-!
Searching and cutting lists of characters. Everything here is plain recursion on the text, so that
what a reader accepts can be stated without positions.
-/

namespace ShopLint.Chars

/-- The text before and after the first place where `needle` stands. -/
def cut (needle : List Char) : List Char → Option (List Char × List Char)
  | [] => if needle.isEmpty then some ([], []) else none
  | c :: cs =>
    if needle.isPrefixOf (c :: cs) then some ([], (c :: cs).drop needle.length)
    else (cut needle cs).map fun p => (c :: p.1, p.2)

/-- The text before and after the last place where `needle` stands. -/
def cutLast (needle text : List Char) : Option (List Char × List Char) :=
  (cut needle.reverse text.reverse).map fun p => (p.2.reverse, p.1.reverse)

def contains (needle text : List Char) : Bool := (cut needle text).isSome

/-- The pieces between the separators; there is always at least one. -/
def splitOn (sep : Char) : List Char → List (List Char)
  | [] => [[]]
  | c :: cs =>
    if c = sep then [] :: splitOn sep cs
    else
      match splitOn sep cs with
      | [] => [[c]]
      | piece :: pieces => (c :: piece) :: pieces

/-- Replacement from left to right; `skip` characters of a replaced stretch are still to be passed over. -/
def replaceFrom (old new : List Char) : Nat → List Char → List Char
  | _, [] => []
  | skip + 1, _ :: cs => replaceFrom old new skip cs
  | 0, c :: cs =>
    if old.isPrefixOf (c :: cs) then new ++ replaceFrom old new (old.length - 1) cs
    else c :: replaceFrom old new 0 cs

/-- Every stretch equal to the non-empty `old`, replaced. -/
def replaceAll (old new text : List Char) : List Char := replaceFrom old new 0 text

def dropRightWhile (p : Char → Bool) (text : List Char) : List Char :=
  (text.reverse.dropWhile p).reverse

def trimWhile (p : Char → Bool) (text : List Char) : List Char :=
  dropRightWhile p (text.dropWhile p)

/-- What follows `lead`, when the text starts with it. -/
def after? (lead text : List Char) : Option (List Char) :=
  if lead.isPrefixOf text then some (text.drop lead.length) else none

/-- What follows the text, when some `p` holds for a first character. -/
def afterOne? (p : Char → Bool) : List Char → Option (List Char)
  | [] => none
  | c :: cs => if p c then some cs else none

/-- The longest stretch of characters in `p`, which must not be empty, and what follows it. -/
def span1? (p : Char → Bool) (text : List Char) : Option (List Char × List Char) :=
  match text.takeWhile p with
  | [] => none
  | c :: cs => some (c :: cs, text.dropWhile p)

@[simp] theorem splitOn_ne_nil (sep : Char) (text : List Char) : splitOn sep text ≠ [] := by
  cases text with
  | nil => simp [splitOn]
  | cons c cs => simp only [splitOn]; split <;> (try split) <;> simp

/-- A first character that does not separate belongs to the first piece. -/
theorem splitOn_cons_of_ne {sep c : Char} (h : c ≠ sep) (text : List Char) :
    ∃ piece others, splitOn sep text = piece :: others ∧ splitOn sep (c :: text) = (c :: piece) :: others := by
  cases pieces : splitOn sep text with
  | nil => exact absurd pieces (splitOn_ne_nil sep text)
  | cons piece others => exact ⟨piece, others, rfl, by simp [splitOn, h, pieces]⟩

theorem cut_eq_some {needle text before rest : List Char} (h : cut needle text = some (before, rest)) :
    text = before ++ needle ++ rest := by
  induction text generalizing before with
  | nil => simp_all [cut]
  | cons c cs ih =>
    simp only [cut] at h
    split at h
    next lead =>
      obtain ⟨tail, ht⟩ := List.isPrefixOf_iff_prefix.1 lead
      simp only [Option.some.injEq, Prod.mk.injEq] at h
      obtain ⟨rfl, rfl⟩ := h
      simp [← ht]
    next =>
      obtain ⟨p, hp, heq⟩ := Option.map_eq_some_iff.1 h
      simp only [Prod.mk.injEq] at heq
      obtain ⟨rfl, rfl⟩ := heq
      simp [ih hp]

theorem after?_eq_some {lead text rest : List Char} :
    after? lead text = some rest ↔ text = lead ++ rest := by
  simp only [after?]
  split
  next h =>
    obtain ⟨tail, rfl⟩ := List.isPrefixOf_iff_prefix.1 h
    simp
  next h =>
    simp only [reduceCtorEq, false_iff]
    rintro rfl
    exact h (List.isPrefixOf_iff_prefix.2 ⟨rest, rfl⟩)

end ShopLint.Chars
