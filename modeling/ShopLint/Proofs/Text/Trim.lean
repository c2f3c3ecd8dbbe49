import ShopLint.Proofs.Path
import ShopLint.Proofs.Text.Case

/-!
Texts without what stands around them. What is trimmed are the characters of one kind before and after
a text; adding some there changes nothing, and no character of another kind is lost.
-/

namespace ShopLint

namespace Chars

variable {p : Char → Bool}

theorem exists_dropRightWhile (p : Char → Bool) (text : List Char) :
    ∃ tail, text = dropRightWhile p text ++ tail ∧ ∀ c ∈ tail, p c := by
  refine ⟨(text.reverse.takeWhile p).reverse, ?_, fun c mem => ?_⟩
  · rw [dropRightWhile, ← List.reverse_append, List.takeWhile_append_dropWhile, List.reverse_reverse]
  · exact List.mem_takeWhile_imp (List.mem_reverse.1 mem)

/-- A text is what is left of it after trimming, between characters that are trimmed. -/
theorem exists_trimWhile (p : Char → Bool) (text : List Char) :
    ∃ lead tail, text = lead ++ (trimWhile p text ++ tail) ∧ (∀ c ∈ lead, p c) ∧ ∀ c ∈ tail, p c := by
  obtain ⟨tail, split, trimmed⟩ := exists_dropRightWhile p (text.dropWhile p)
  refine ⟨text.takeWhile p, tail, ?_, fun c mem => List.mem_takeWhile_imp mem, trimmed⟩
  rw [trimWhile, ← split, List.takeWhile_append_dropWhile]

theorem dropRightWhile_append {tail : List Char} (h : ∀ c ∈ tail, p c) (text : List Char) :
    dropRightWhile p (text ++ tail) = dropRightWhile p text := by
  have trimmed : ∀ c ∈ tail.reverse, p c := fun c mem => h c (List.mem_reverse.1 mem)
  rw [dropRightWhile, List.reverse_append, List.dropWhile_append_of_pos trimmed, dropRightWhile]

/-- Nothing is trimmed beyond a character that stays. -/
theorem dropRightWhile_append_cons {c : Char} (h : p c = false) (front tail : List Char) :
    dropRightWhile p (front ++ c :: tail) = front ++ c :: dropRightWhile p tail := by
  have stays (rest : List Char) : (c :: rest).dropWhile p = c :: rest :=
    List.dropWhile_cons_of_neg (by simp [h])
  simp only [dropRightWhile, List.reverse_append, List.reverse_cons, List.append_assoc, List.dropWhile_append,
    List.singleton_append, stays]
  split
  next none => simp [List.isEmpty_iff.1 none]
  next => simp

theorem dropRightWhile_cons (c : Char) (text : List Char) :
    dropRightWhile p (c :: dropRightWhile p text) = dropRightWhile p (c :: text) := by
  obtain ⟨tail, split, dropped⟩ := exists_dropRightWhile p text
  calc
    _ = dropRightWhile p (c :: dropRightWhile p text ++ tail) := (dropRightWhile_append dropped _).symm
    _ = dropRightWhile p (c :: text) := by rw [List.cons_append, ← split]

/-- Nothing is trimmed of a text whose ends stay. -/
theorem trimWhile_eq_self {text : List Char} (first : ∀ c, text.head? = some c → p c = false)
    (last : ∀ c, text.getLast? = some c → p c = false) : trimWhile p text = text := by
  have front : text.dropWhile p = text := by
    cases text with
    | nil => rfl
    | cons c cs => exact List.dropWhile_cons_of_neg (by simp [first c rfl])
  rw [trimWhile, front]
  rcases List.eq_nil_or_concat text with rfl | ⟨init, c, rfl⟩
  · rfl
  · rw [List.concat_eq_append, dropRightWhile_append_cons (last c (by simp)) init []]
    rfl

theorem trimWhile_append_left {lead : List Char} (h : ∀ c ∈ lead, p c) (text : List Char) :
    trimWhile p (lead ++ text) = trimWhile p text := by
  rw [trimWhile, List.dropWhile_append_of_pos h, trimWhile]

theorem trimWhile_append_right {tail : List Char} (h : ∀ c ∈ tail, p c) (text : List Char) :
    trimWhile p (text ++ tail) = trimWhile p text := by
  simp only [trimWhile, List.dropWhile_append]
  split
  next all =>
    -- nothing but trimmed characters before the tail, so nothing is left on either side
    have dropped : tail.dropWhile p = [] := List.dropWhile_eq_nil_iff.2 h
    rw [dropped, List.isEmpty_iff.1 all]
  next => rw [dropRightWhile_append h]

theorem trimWhile_dropRightWhile (text : List Char) :
    trimWhile p (dropRightWhile p text) = trimWhile p text := by
  obtain ⟨tail, split, dropped⟩ := exists_dropRightWhile p text
  calc
    _ = trimWhile p (dropRightWhile p text ++ tail) := (trimWhile_append_right dropped _).symm
    _ = trimWhile p text := by rw [← split]

theorem length_trimWhile_le (text : List Char) : (trimWhile p text).length ≤ text.length := by
  obtain ⟨lead, tail, split, _⟩ := exists_trimWhile p text
  have lengths := congrArg List.length split
  simp only [List.length_append] at lengths
  omega

/-- A text is trimmed just if its ends stay. -/
theorem trimWhile_eq_self_iff {text : List Char} : trimWhile p text = text ↔
    (∀ c, text.head? = some c → p c = false) ∧ ∀ c, text.getLast? = some c → p c = false := by
  refine ⟨fun same => ⟨fun c first => ?_, fun c last => ?_⟩, fun ends => trimWhile_eq_self ends.1 ends.2⟩
  · obtain ⟨rest, rfl⟩ := List.head?_eq_some_iff.1 first
    by_contra trimmed
    have dropped : ∀ d ∈ [c], p d := by simpa using trimmed
    have shorter := length_trimWhile_le (p := p) rest
    rw [← trimWhile_append_left dropped, List.singleton_append, same, List.length_cons] at shorter
    omega
  · obtain ⟨front, rfl⟩ := List.getLast?_eq_some_iff.1 last
    by_contra trimmed
    have dropped : ∀ d ∈ [c], p d := by simpa using trimmed
    have shorter := length_trimWhile_le (p := p) front
    rw [← trimWhile_append_right dropped, same, List.length_append, List.length_singleton] at shorter
    omega

theorem trimWhile_trimWhile (text : List Char) : trimWhile p (trimWhile p text) = trimWhile p text := by
  obtain ⟨lead, tail, split, before, after⟩ := exists_trimWhile p text
  calc
    _ = trimWhile p (lead ++ (trimWhile p text ++ tail)) := by
      rw [trimWhile_append_left before, trimWhile_append_right after]
    _ = trimWhile p text := by rw [← split]

/-- Characters that are not trimmed are kept, each as often as before. -/
theorem count_trimWhile {c : Char} (h : p c = false) (text : List Char) :
    (trimWhile p text).count c = text.count c := by
  obtain ⟨lead, tail, split, before, after⟩ := exists_trimWhile p text
  have absent {part : List Char} (trimmed : ∀ d ∈ part, p d) : part.count c = 0 := by
    refine List.count_eq_zero.2 fun mem => ?_
    simp [trimmed c mem] at h
  have parts := congrArg (List.count c) split
  rw [List.count_append, List.count_append, absent before, absent after] at parts
  omega

theorem mem_trimWhile_or {c : Char} {text : List Char} (h : c ∈ text) : p c ∨ c ∈ trimWhile p text := by
  obtain ⟨lead, tail, split, before, after⟩ := exists_trimWhile p text
  rw [split, List.mem_append, List.mem_append] at h
  rcases h with mem | mem | mem
  · exact .inl (before c mem)
  · exact .inr mem
  · exact .inl (after c mem)

end Chars

namespace Text

theorem toList_trim (text : String) : (trim text).toList = Chars.trimWhile isBlank text.toList := by
  rw [trim, String.toList_ofList]

theorem length_trim_le (text : String) : (trim text).length ≤ text.length := by
  rw [← String.length_toList, ← String.length_toList, toList_trim]
  exact Chars.length_trimWhile_le _

@[simp] theorem trim_trim (text : String) : trim (trim text) = trim text := by
  rw [← String.toList_inj, toList_trim, toList_trim, Chars.trimWhile_trimWhile]

/-- A text of which the trimmed part is as long is trimmed. -/
theorem trim_eq_of_length {text : String} (h : (trim text).length = text.length) : trim text = text := by
  obtain ⟨lead, tail, split, _⟩ := Chars.exists_trimWhile isBlank text.toList
  have lengths := congrArg List.length split
  rw [← toList_trim] at split lengths
  simp only [List.length_append, String.length_toList] at lengths
  obtain rfl : lead = [] := List.eq_nil_of_length_eq_zero (by omega)
  obtain rfl : tail = [] := List.eq_nil_of_length_eq_zero (by omega)
  rw [List.nil_append, List.append_nil] at split
  exact (String.toList_inj.1 split).symm

/-- Lower case does not hide white space around a text. -/
theorem toLower_trim_eq_iff {text : String} :
    toLower (trim text) = toLower text ↔ trim text = text := by
  constructor
  · intro same
    have lengths := congrArg String.length same
    rw [length_toLower, length_toLower] at lengths
    exact trim_eq_of_length lengths
  · intro same
    rw [same]

end Text

end ShopLint
