import ShopLint.Text.Line
import Mathlib.Data.List.Basic
import Mathlib.Data.List.DropRight

/-!
Searching a text. A search finds a needle just if it stands somewhere in the text, and then where it
stands first. A character that is not in the needle divides the places where it can stand.
-/

namespace ShopLint

namespace Chars

theorem contains_iff {needle text : List Char} :
    contains needle text = true ↔ ∃ before rest, text = before ++ needle ++ rest := by
  rw [contains, Option.isSome_iff_exists]
  constructor
  · rintro ⟨⟨before, rest⟩, found⟩
    exact ⟨before, rest, cut_eq_some found⟩
  · rintro ⟨before, rest, rfl⟩
    induction before with
    | nil =>
      cases needle with
      | nil => cases rest <;> simp [cut]
      | cons c cs => simp [cut]
    | cons c cs ih =>
      obtain ⟨found, eq⟩ := ih
      rw [List.cons_append, List.cons_append, cut]
      split
      · exact ⟨_, rfl⟩
      · rw [eq]
        exact ⟨_, rfl⟩

theorem contains_iff_isInfix {needle text : List Char} : contains needle text = true ↔ needle <:+: text := by
  rw [contains_iff]
  constructor
  · rintro ⟨before, rest, rfl⟩
    exact ⟨before, rest, rfl⟩
  · rintro ⟨before, rest, rfl⟩
    exact ⟨before, rest, rfl⟩

theorem cut_eq_none_iff {needle text : List Char} : cut needle text = none ↔ ¬needle <:+: text := by
  rw [← contains_iff_isInfix, contains, Option.not_isSome_iff_eq_none]

theorem cut_suffix {needle text before rest : List Char} (h : cut needle text = some (before, rest)) :
    rest <:+ text := by
  rw [cut_eq_some h]
  exact List.suffix_append _ _

/-- No needle stands before the one that is found. -/
theorem length_le_of_cut {needle text before rest before' rest' : List Char}
    (found : cut needle text = some (before, rest)) (other : text = before' ++ needle ++ rest') :
    before.length ≤ before'.length := by
  induction text generalizing before before' with
  | nil =>
    simp only [cut] at found
    split at found
    · simp only [Option.some.injEq, Prod.mk.injEq] at found
      simp [← found.1]
    · cases found
  | cons c cs ih =>
    simp only [cut] at found
    split at found
    · simp only [Option.some.injEq, Prod.mk.injEq] at found
      simp [← found.1]
    next notHere =>
      obtain ⟨p, later, eq⟩ := Option.map_eq_some_iff.1 found
      simp only [Prod.mk.injEq] at eq
      obtain ⟨rfl, rfl⟩ := eq
      cases before' with
      | nil => exact absurd (List.isPrefixOf_iff_prefix.2 ⟨rest', other.symm⟩) notHere
      | cons d before' =>
        have rest_eq : cs = before' ++ needle ++ rest' := (List.cons.inj other).2
        exact Nat.succ_le_succ (ih later rest_eq)

/-- A text is cut where its first part and the needle hold no needle but the last. -/
theorem cut_append_of_first {needle front rest : List Char}
    (first : ∀ before after, front ++ needle ++ rest = before ++ needle ++ after → front.length ≤ before.length) :
    cut needle (front ++ needle ++ rest) = some (front, rest) := by
  have some : contains needle (front ++ needle ++ rest) = true := contains_iff.2 ⟨front, rest, rfl⟩
  obtain ⟨⟨before, after⟩, found⟩ := Option.isSome_iff_exists.1 some
  have split := cut_eq_some found
  have lengths : before.length = front.length :=
    Nat.le_antisymm (length_le_of_cut found rfl) (first before after split)
  rw [List.append_assoc, List.append_assoc] at split
  obtain ⟨rfl, tails⟩ := List.append_inj split lengths.symm
  obtain rfl := List.append_cancel_left tails
  exact found

/-- A character that is not in the needle keeps what stands before it apart from the needle behind it. -/
theorem cut_append_cons {c : Char} {needle front : List Char} (absent : c ∉ needle)
    (free : ¬needle <:+: front) (rest : List Char) :
    cut needle (front ++ c :: (needle ++ rest)) = some (front ++ [c], rest) := by
  have split : front ++ c :: (needle ++ rest) = front ++ [c] ++ needle ++ rest := by simp
  rw [split]
  apply cut_append_of_first
  intro before after eq
  by_contra earlier
  rw [List.length_append, List.length_singleton] at earlier
  rw [← split, List.append_assoc] at eq
  obtain ⟨more, rfl⟩ : before <+: front :=
    List.prefix_of_prefix_length_le ⟨_, eq.symm⟩ (List.prefix_append front _) (by omega)
  rw [List.append_assoc] at eq
  rcases List.append_eq_append_iff.1 (List.append_cancel_left eq) with ⟨tail, rfl, inner⟩ | ⟨tail, rfl, _⟩
  · -- the other needle would go on over the character
    cases tail with
    | nil => exact free ⟨before, [], by simp⟩
    | cons d tail =>
      obtain rfl : c = d := (List.cons.inj inner).1
      exact absurd (by simp) absent
  · exact free ⟨before, tail, by simp⟩

/-- What follows a text does not move its first needle. -/
theorem cut_append {needle text before rest : List Char} (h : cut needle text = some (before, rest))
    (more : List Char) : cut needle (text ++ more) = some (before, rest ++ more) := by
  have text_eq := cut_eq_some h
  have split : text ++ more = before ++ needle ++ (rest ++ more) := by rw [text_eq, List.append_assoc]
  rw [split]
  apply cut_append_of_first
  intro before' after eq
  by_contra earlier
  have inText : before' ++ needle <+: text := by
    refine List.prefix_of_prefix_length_le ⟨after, ?_⟩ (List.prefix_append text more) ?_
    · rw [split, eq]
    · have lengths := congrArg List.length text_eq
      simp only [List.length_append] at lengths ⊢
      omega
  obtain ⟨after', eq'⟩ := inText
  exact earlier (length_le_of_cut h eq'.symm)

theorem cutLast_eq_some {needle text before rest : List Char}
    (h : cutLast needle text = some (before, rest)) : text = before ++ needle ++ rest := by
  obtain ⟨p, reversed, eq⟩ := Option.map_eq_some_iff.1 h
  obtain ⟨rfl, rfl⟩ := Prod.mk.inj eq
  rw [← List.reverse_reverse text, cut_eq_some reversed]
  simp

theorem infix_append_cons_iff {c : Char} {needle : List Char} (absent : c ∉ needle)
    (before rest : List Char) :
    needle <:+: before ++ c :: rest ↔ needle <:+: before ∨ needle <:+: rest := by
  constructor
  · rintro ⟨left, right, eq⟩
    rw [List.append_assoc] at eq
    rcases List.append_eq_append_iff.1 eq with ⟨more, rfl, split⟩ | ⟨more, rfl, split⟩
    · -- the needle starts in the first part, and would hold the character unless it ends there
      rcases List.append_eq_append_iff.1 split with ⟨tail, rfl, _⟩ | ⟨tail, rfl, inner⟩
      · exact .inl ⟨left, tail, by simp⟩
      · cases tail with
        | nil => exact .inl ⟨left, [], by simp⟩
        | cons d tail =>
          obtain rfl : c = d := (List.cons.inj inner).1
          exact absurd (by simp) absent
    · cases more with
      | nil =>
        cases needle with
        | nil => exact .inl List.nil_infix
        | cons d needle =>
          obtain rfl : c = d := (List.cons.inj split).1
          exact absurd List.mem_cons_self absent
      | cons d more => exact .inr ⟨more, right, by simpa using (List.cons.inj split).2.symm⟩
  · rintro (inside | inside)
    · exact inside.trans (List.prefix_append _ _).isInfix
    · exact inside.trans (List.suffix_append_of_suffix (List.suffix_cons c rest)).isInfix

/-- What stands behind a text holds no end of a needle. -/
theorem infix_of_append_right {c : Char} {needle text tail : List Char} (last : needle.getLast? = some c)
    (absent : c ∉ tail) (h : needle <:+: text ++ tail) : needle <:+: text := by
  obtain ⟨left, right, eq⟩ := h
  rcases List.append_eq_append_iff.1 eq with ⟨more, rfl, split⟩ | ⟨more, inner, rfl⟩
  · exact ⟨left, more, rfl⟩
  · by_cases none : more = []
    · exact ⟨left, [], by simpa [none] using inner⟩
    · have nonempty : needle ≠ [] := by
        rintro rfl
        cases last
      have ends := congrArg List.getLast? inner
      rw [List.getLast?_append_of_ne_nil _ nonempty, List.getLast?_append_of_ne_nil _ none, last] at ends
      exact absurd (List.mem_append_left _ (List.mem_of_getLast? ends.symm)) absent

/-- What stands before a text holds no start of a needle. -/
theorem infix_of_append_left {c : Char} {needle lead text : List Char} (first : needle.head? = some c)
    (absent : c ∉ lead) (h : needle <:+: lead ++ text) : needle <:+: text := by
  have reversed : needle.reverse <:+: text.reverse ++ lead.reverse := by
    rw [← List.reverse_append]
    exact List.reverse_infix.2 h
  have last : needle.reverse.getLast? = some c := by rw [List.getLast?_reverse, first]
  exact List.reverse_infix.1 (infix_of_append_right last (by simpa using absent) reversed)

/-! A first part that goes on up to a character -/

section

variable {p : Char → Bool} {front : List Char} {c : Char} (inside : ∀ d ∈ front, p d) (stop : p c = false)
  (rest : List Char)

include inside stop

theorem takeWhile_until : (front ++ c :: rest).takeWhile p = front := by
  rw [List.takeWhile_append_of_pos inside, List.takeWhile_cons_of_neg (by simp [stop]), List.append_nil]

theorem dropWhile_until : (front ++ c :: rest).dropWhile p = c :: rest := by
  rw [List.dropWhile_append_of_pos inside, List.dropWhile_cons_of_neg (by simp [stop])]

end

/-- A stretch whose first character does not come again in it overlaps no later place of that character, so
it stands in what comes before, or no earlier than there. -/
theorem length_le_of_append {c : Char} {front rest earlier stretch more : List Char}
    (h : front ++ c :: rest = earlier ++ (c :: stretch ++ more)) (absent : c ∉ stretch)
    (outside : ¬(c :: stretch) <:+: front) : front.length ≤ earlier.length := by
  rcases List.append_eq_append_iff.1 h with ⟨extra, rfl, _⟩ | ⟨extra, rfl, tail⟩
  · simp
  · cases extra with
    | nil => simp
    | cons d ds =>
      rw [List.cons_append, List.cons_append, List.cons.injEq] at tail
      obtain ⟨rfl, inner⟩ := tail
      rcases List.append_eq_append_iff.1 inner with ⟨extra, rfl, _⟩ | ⟨extra, rfl, last⟩
      · exact absurd ⟨earlier, extra, by simp⟩ outside
      · cases extra with
        | nil => exact absurd ⟨earlier, [], by simp⟩ outside
        | cons e es =>
          obtain rfl : c = e := (List.cons.inj last).1
          exact absurd (List.mem_append_right ds List.mem_cons_self) absent

/-- The text after the last `c`, which is all of it when there is none. -/
def afterLast (c : Char) (text : List Char) : List Char := text.rtakeWhile (· ≠ c)

theorem afterLast_suffix (c : Char) (text : List Char) : afterLast c text <:+ text :=
  List.rtakeWhile_suffix _ _

theorem afterLast_mono {c : Char} {rest text : List Char} (h : rest <:+ text) :
    afterLast c rest <:+ afterLast c text := by
  obtain ⟨front, rfl⟩ := h
  rw [afterLast, afterLast, List.rtakeWhile, List.rtakeWhile, List.reverse_suffix, List.reverse_append,
    List.takeWhile_append]
  split
  next all =>
    rw [(List.takeWhile_prefix _).eq_of_length all]
    exact List.prefix_append _ _
  next => exact List.prefix_rfl

theorem afterLast_of_not_mem {c : Char} {text : List Char} (h : c ∉ text) : afterLast c text = text := by
  refine List.rtakeWhile_eq_self_iff.2 fun d mem => decide_eq_true fun same => ?_
  exact h (same ▸ mem)

theorem afterLast_append {c : Char} (before rest : List Char) :
    afterLast c (before ++ c :: rest) = afterLast c rest := by
  rw [afterLast, afterLast, List.rtakeWhile, List.rtakeWhile, List.reverse_append, List.reverse_cons,
    List.append_assoc, List.takeWhile_append]
  have stops : ([c] ++ before.reverse).takeWhile (· ≠ c) = [] := by simp
  rw [stops, List.append_nil]
  split
  next all => rw [(List.takeWhile_prefix _).eq_of_length all]
  next => rfl

/-- After the last `c` there is one text only. -/
theorem eq_of_append_cons_last {c : Char} {before other rest rest' : List Char}
    (h : before ++ c :: rest = other ++ c :: rest') (absent : c ∉ rest) (absent' : c ∉ rest') :
    before = other ∧ rest = rest' := by
  have ends := congrArg (afterLast c) h
  rw [afterLast_append, afterLast_append, afterLast_of_not_mem absent, afterLast_of_not_mem absent'] at ends
  subst ends
  exact ⟨List.append_cancel_right h, rfl⟩

theorem of_mem_span1? {p : Char → Bool} {text word rest : List Char}
    (h : span1? p text = some (word, rest)) : ∀ c ∈ word, p c := by
  unfold span1? at h
  split at h
  next => cases h
  next taken =>
    cases h
    rw [← taken]
    exact fun c mem => List.mem_takeWhile_imp mem

end Chars

/-- The needle stands in the text and starts on the given line. -/
def StandsOn (text needle : List Char) (n : Nat) : Prop :=
  ∃ before rest, text = before ++ needle ++ rest ∧ lineAfter before = n

theorem StandsOn.one_le {text needle : List Char} {n : Nat} (h : StandsOn text needle n) : 1 ≤ n := by
  obtain ⟨before, _, _, rfl⟩ := h
  exact Nat.succ_le_succ (Nat.zero_le _)

/-- The line that is found is the first on which the needle starts. -/
theorem findLine_cases {needle : List Char} (nonempty : needle ≠ []) (text : List Char) :
    (StandsOn text needle (findLine text needle) ∧ ∀ n, StandsOn text needle n → findLine text needle ≤ n) ∨
      findLine text needle = 0 ∧ ∀ n, ¬StandsOn text needle n := by
  have some : needle.isEmpty = false := by simpa using nonempty
  simp only [findLine, some, Bool.false_eq_true, if_false]
  cases found : Chars.cut needle text with
  | none =>
    refine .inr ⟨rfl, ?_⟩
    rintro n ⟨before, rest, split, _⟩
    have stands := Chars.contains_iff.2 ⟨before, rest, split⟩
    simp [Chars.contains, found] at stands
  | some p =>
    obtain ⟨before, rest⟩ := p
    have split := Chars.cut_eq_some found
    refine .inl ⟨⟨before, rest, split, rfl⟩, ?_⟩
    rintro _ ⟨before', rest', split', rfl⟩
    have starts : before <+: text := ⟨needle ++ rest, by rw [split, List.append_assoc]⟩
    have starts' : before' <+: text := ⟨needle ++ rest', by rw [split', List.append_assoc]⟩
    have earlier := List.prefix_of_prefix_length_le starts starts' (Chars.length_le_of_cut found split')
    exact Nat.succ_le_succ (earlier.sublist.count_le _)

end ShopLint
