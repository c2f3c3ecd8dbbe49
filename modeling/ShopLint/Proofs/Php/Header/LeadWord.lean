import ShopLint.Proofs.Php.Header.Heads

/-!
The words with which the statements of a header start. A statement is read only where a line begins with its
word and a blank; a line that begins with none of them is quiet.
-/

namespace ShopLint.Php

/-- The words with which a statement of a header starts. -/
def leadWords : List (List Char) :=
  ["namespace", "use", "class", "abstract", "final", "readonly"].map String.toList

/-- What stands before the first blank. -/
def firstWord (text : List Char) : List Char := text.takeWhile (!isSpace ·)

/-- The text does not begin with one of the words for a statement. -/
def Quiet (text : List Char) : Prop := firstWord text ∉ leadWords

instance (text : List Char) : Decidable (Quiet text) := inferInstanceAs (Decidable (_ ∉ _))

section

variable {word more rest : List Char}

theorem firstWord_append (h : ∀ c ∈ word, ¬isSpace c) (more : List Char) :
    firstWord (word ++ more) = word ++ firstWord more :=
  List.takeWhile_append_of_pos (by simpa using h)

theorem firstWord_blank {c : Char} (h : isSpace c) (more : List Char) : firstWord (c :: more) = [] :=
  List.takeWhile_cons_of_neg (by simp [h])

theorem not_isSpace_of_isQualified {c : Char} (h : isQualified c) : ¬isSpace c := by
  intro space
  have blank := isBlank_of_isSpace space
  simp [isBlank_eq_false_of_isQualified h] at blank

/-- The first word is known as soon as a blank is. -/
theorem firstWord_append_of_space {text : List Char} (h : ∃ c ∈ text, isSpace c) (more : List Char) :
    firstWord (text ++ more) = firstWord text := by
  obtain ⟨c, mem, space⟩ := h
  induction text with
  | nil => cases mem
  | cons d ds ih =>
    by_cases blank : isSpace d
    · rw [List.cons_append, firstWord_blank blank, firstWord_blank blank]
    · have later : c ∈ ds := by
        rcases List.mem_cons.1 mem with rfl | later
        · exact absurd space blank
        · exact later
      have kept (rest : List Char) : firstWord (d :: rest) = d :: firstWord rest :=
        List.takeWhile_cons_of_pos (by simpa using blank)
      rw [List.cons_append, kept, kept, ih later]

/-- A word that is followed by blanks is the first word. -/
theorem firstWord_eq {word : String} {text after : List Char} (blankless : ∀ c ∈ word.toList, ¬isSpace c)
    (isWord : word? word text = some after) (blanks : spaces? after = some rest) :
    firstWord text = word.toList := by
  obtain ⟨gap, nonempty, spaces, rfl, _⟩ := spaces?_eq_some_iff.1 blanks
  obtain ⟨c, cs, rfl⟩ := List.exists_cons_of_ne_nil nonempty
  rw [Chars.after?_eq_some.1 isWord, firstWord_append blankless, List.cons_append,
    firstWord_blank (spaces c List.mem_cons_self), List.append_nil]

/-- Where a name ends, the first word is another than those that the name is not. -/
theorem firstWord_ne {lead : List Char} (spelled : ∀ c ∈ lead, isQualified c)
    (named : ∀ c ∈ word, isQualified c) (ends : ∀ c, more.head? = some c → isQualified c = false)
    (other : word ≠ lead) : firstWord (word ++ more) ≠ lead := by
  rw [firstWord_append fun c mem => not_isSpace_of_isQualified (named c mem)]
  cases tail : firstWord more with
  | nil => rwa [List.append_nil]
  | cons c cs =>
    -- the first word goes on with something that does not stand in a name
    have first : more.head? = some c := by
      cases more with
      | nil => cases tail
      | cons d ds =>
        rw [firstWord, List.takeWhile_cons] at tail
        split at tail
        · exact congrArg some (List.cons.inj tail).1
        · cases tail
    rintro rfl
    have inLead := spelled c (List.mem_append_right word List.mem_cons_self)
    simp [ends c first] at inLead

/-- A name that is none of the words is quiet. -/
theorem quiet_append (named : ∀ c ∈ word, isQualified c) (plain : word ∉ leadWords)
    (ends : ∀ c, more.head? = some c → isQualified c = false) : Quiet (word ++ more) := by
  have spelled : ∀ lead ∈ leadWords, ∀ c ∈ lead, isQualified c := by decide
  intro listed
  have other : word ≠ firstWord (word ++ more) := fun same => plain (same ▸ listed)
  exact firstWord_ne (spelled _ listed) named ends other rfl

end

/-! Nothing is read where the first word is another -/

theorem namespace?_eq_none {text : List Char}
    (h : firstWord text ≠ "namespace".toList) : namespace? text = none := by
  rw [Option.eq_none_iff_forall_ne_some]
  intro name read
  simp only [namespace?, Option.bind_eq_bind, Option.bind_eq_some_iff] at read
  obtain ⟨_, isWord, _, blanks, _⟩ := read
  exact h (firstWord_eq (by decide) isWord blanks)

theorem use?_eq_none {text : List Char} (h : firstWord text ≠ "use".toList) : use? text = none := by
  rw [Option.eq_none_iff_forall_ne_some]
  intro found read
  simp only [use?, Option.bind_eq_bind, Option.bind_eq_some_iff] at read
  obtain ⟨_, isWord, _, blanks, _⟩ := read
  exact h (firstWord_eq (by decide) isWord blanks)

/-- The words that may stand before `class`. -/
def classModifiers : List String := ["abstract", "final", "readonly"]

/-- A class declaration starts: any modifiers and the word `class`, with blanks after each of them. -/
inductive StartsClass : List Char → Prop
  | word {blank : Char} {more : List Char} (h : isSpace blank) : StartsClass ("class".toList ++ blank :: more)
  | modifier {m : String} {blanks more : List Char} (known : m ∈ classModifiers) (nonempty : blanks ≠ [])
      (spaces : ∀ c ∈ blanks, isSpace c) (h : StartsClass more) :
      StartsClass (m.toList ++ (blanks ++ more))

theorem StartsClass.firstWord_mem {text : List Char} (h : StartsClass text) :
    firstWord text ∈ ("class" :: classModifiers).map String.toList := by
  cases h with
  | word space =>
    rw [firstWord_append (by decide), firstWord_blank space]
    decide
  | @modifier m blanks more known nonempty spaces _ =>
    have blankless : ∀ m ∈ classModifiers, ∀ c ∈ m.toList, ¬isSpace c := by decide
    obtain ⟨c, cs, rfl⟩ := List.exists_cons_of_ne_nil nonempty
    rw [firstWord_append (blankless m known), List.cons_append, firstWord_blank (spaces c List.mem_cons_self),
      List.append_nil]
    exact List.mem_map_of_mem (List.mem_cons_of_mem _ known)

theorem classModifier?_eq_some {text rest : List Char} (h : classModifier? text = some rest) :
    ∃ m ∈ classModifiers, ∃ blanks, blanks ≠ [] ∧ (∀ c ∈ blanks, isSpace c) ∧
      text = m.toList ++ (blanks ++ rest) := by
  simp only [classModifier?] at h
  split at h
  next after found =>
    obtain ⟨m, known, isWord⟩ := List.exists_of_findSome?_eq_some found
    obtain ⟨blanks, nonempty, spaces, rfl, _⟩ := spaces?_eq_some_iff.1 h
    exact ⟨m, known, blanks, nonempty, spaces, Chars.after?_eq_some.1 isWord⟩
  next => cases h

/-- Where a class is read, a class declaration starts. -/
theorem startsClass_of_classHead? {text : List Char} {head : ClassHead} (h : classHead? text = some head) :
    StartsClass text := by
  simp only [classHead?, Option.bind_eq_bind, Option.bind_eq_some_iff] at h
  obtain ⟨after, isWord, _, isBlanks, -⟩ := h
  fun_induction skipClassModifiers text with
  | case1 text rest found ih =>
    obtain ⟨m, known, blanks, nonempty, spaces, rfl⟩ := classModifier?_eq_some found
    exact .modifier known nonempty spaces (ih isWord)
  | case2 text _ =>
    obtain ⟨blanks, nonempty, spaces, rfl, _⟩ := spaces?_eq_some_iff.1 isBlanks
    obtain ⟨c, cs, rfl⟩ := List.exists_cons_of_ne_nil nonempty
    rw [Chars.after?_eq_some.1 isWord]
    exact .word (spaces c List.mem_cons_self)

theorem classHead?_eq_none {text : List Char} (h : ¬StartsClass text) : classHead? text = none := by
  rw [Option.eq_none_iff_forall_ne_some]
  exact fun head read => h (startsClass_of_classHead? read)

theorem Quiet.not_startsClass {text : List Char} (h : Quiet text) : ¬StartsClass text := by
  have listed : ∀ word ∈ ("class" :: classModifiers).map String.toList, word ∈ leadWords := by decide
  exact fun starts => h (listed _ starts.firstWord_mem)

/-- Where a class declaration starts, no other statement is read. -/
theorem StartsClass.unread {text : List Char} (h : StartsClass text) :
    (namespace? text = none ∧ use? text = none) := by
  have apart : "namespace".toList ∉ ("class" :: classModifiers).map String.toList ∧
      "use".toList ∉ ("class" :: classModifiers).map String.toList := by decide
  refine ⟨namespace?_eq_none ?_, use?_eq_none ?_⟩
  · exact fun same => apart.1 (same ▸ h.firstWord_mem)
  · exact fun same => apart.2 (same ▸ h.firstWord_mem)

/-- At a quiet head nothing is read. -/
theorem Quiet.unread {text : List Char} (h : Quiet text) :
    (namespace? text = none ∧ use? text = none ∧ classHead? text = none) := by
  refine ⟨namespace?_eq_none ?_, use?_eq_none ?_, classHead?_eq_none h.not_startsClass⟩
  · intro same
    exact h (same ▸ by decide)
  · intro same
    exact h (same ▸ by decide)

end ShopLint.Php
