import ShopLint.Proofs.Php.Constructor.Modifier
import Mathlib.Data.List.Find

/-!
One constructor parameter as it is written, and what is read of it. Whatever stands before, between and
after its words, a parameter is read back with its name, its type and its marks.
-/

namespace ShopLint.Php

/-! How a parameter is written -/

/-- The name of a class or a builtin type. -/
def IsTypeName (name : List Char) : Prop :=
  ∃ c cs, name = c :: cs ∧ isTypeStart c ∧ ∀ d ∈ cs, isQualified d

instance (name : List Char) : Decidable (IsTypeName name) :=
  match name with
  | [] => isFalse fun ⟨_, _, eq, _⟩ => List.cons_ne_nil _ _ eq.symm
  | c :: cs => decidable_of_iff (isTypeStart c ∧ ∀ d ∈ cs, isQualified d)
      ⟨fun h => ⟨c, cs, rfl, h⟩, fun ⟨_, _, eq, h⟩ => by obtain ⟨rfl, rfl⟩ := List.cons.inj eq; exact h⟩

/-- A type: perhaps a question mark, then one name or several with bars between them. -/
structure WrittenType where
  marked : Bool
  first : List Char
  others : List (List Char)
  spelled : ∀ m ∈ first :: others, IsTypeName m
  notModifier : ¬IsModifier (['|'].intercalate (first :: others))

namespace WrittenType

def members (t : WrittenType) : List (List Char) := t.first :: t.others

/-- The type without its question mark. -/
def text (t : WrittenType) : List Char := ['|'].intercalate t.members

def mark (t : WrittenType) : List Char := if t.marked then ['?'] else []

end WrittenType

/-- A parameter of a constructor. `reference` and `variadic` hold the blanks after the mark if it is there,
`value` the text of a default after its equals sign. -/
structure WrittenParam where
  lead : Gap
  modifiers : List Modifier
  type : Option (WrittenType × Gap)
  reference : Option Gap
  variadic : Option Gap
  name : List Char
  after : Gap
  value : Option (List Char)
  isName : IsIdentifier name
  value_inside : ∀ text ∈ value, ',' ∉ text ∧ ')' ∉ text

namespace WrittenParam

variable (p : WrittenParam)

/-- From the variadic mark on. -/
def dotted : List Char := (p.variadic.elim [] fun gap => "...".toList ++ gap.1) ++ '$' :: p.name

/-- From the reference mark on. -/
def marks : List Char := (p.reference.elim [] fun gap => '&' :: gap.1) ++ p.dotted

/-- From the type on. -/
def body : List Char :=
  p.type.elim p.marks fun (type, gap) => type.mark ++ (type.text ++ (gap.1 ++ p.marks))

/-- From the first word to the name. -/
def words : List Char := p.modifiers.flatMap Modifier.text ++ p.body

def valueText : List Char := p.value.elim [] ('=' :: ·)

def text : List Char := p.lead.1 ++ (p.words ++ (p.after.1 ++ p.valueText))

/-- The type as written, empty if there is none. -/
def typeAsWritten : List Char := p.type.elim [] fun (type, _) => type.text

/-- There is a question mark before the type. -/
def isMarked : Bool := p.type.elim false fun (type, _) => type.marked

/-- The names in the type, none if there is no type. -/
def members : List (List Char) := p.type.elim [] fun (type, _) => type.members

/-- What a parameter means in a file with the given imports and namespace. -/
def meaning (order : Dict.Listing String) (imports : Dict String) (space : String) (line : Nat) :
    Param where
  name := String.ofList p.name
  type := String.ofList p.typeAsWritten
  className :=
    ((p.members.map String.ofList).find? fun m => !ClassName.isBuiltin m).elim ""
      (ClassName.resolve order imports space)
  nullable := p.isMarked || (p.members.map String.ofList).any (Text.equalFold · "null")
  isOptional := p.value.isSome
  line := line

end WrittenParam

/-! Types -/

theorem IsTypeName.isQualified {name : List Char} (h : IsTypeName name) : ∀ c ∈ name, isQualified c := by
  obtain ⟨c, cs, rfl, start, others⟩ := h
  refine List.forall_mem_cons.2 ⟨?_, others⟩
  simp only [isTypeStart, Bool.or_eq_true, decide_eq_true_eq] at start
  rcases start with named | rfl
  · exact isQualified_of_isWord (isWord_of_isNameStart named)
  · decide

namespace WrittenType

variable (t : WrittenType)

theorem starts : ∃ c cs, t.text = c :: cs ∧ isTypeStart c ∧ ∀ d ∈ cs, isTypeChar d := by
  obtain ⟨c, cs, spelled, start, others⟩ := t.spelled t.first List.mem_cons_self
  refine ⟨c, cs ++ t.others.flatMap ('|' :: ·), ?_, start, fun d mem => ?_⟩
  · rw [text, members, Chars.intercalate_cons, spelled, List.cons_append]
  · rcases List.mem_append.1 mem with inFirst | inOthers
    · exact isTypeChar_of_isQualified (others d inFirst)
    · obtain ⟨m, listed, inMember⟩ := List.mem_flatMap.1 inOthers
      rcases List.mem_cons.1 inMember with rfl | inName
      · decide
      · exact isTypeChar_of_isQualified
          ((t.spelled m (List.mem_cons_of_mem _ listed)).isQualified d inName)

theorem isTypeChar_of_mem : ∀ c ∈ t.text, isTypeChar c := by
  obtain ⟨c, cs, spelled, start, others⟩ := t.starts
  rw [spelled]
  exact List.forall_mem_cons.2 ⟨isTypeChar_of_isTypeStart start, others⟩

/-- A type is read as far as it goes. -/
theorem typeText_append {rest : List Char} (ends : ∀ c, rest.head? = some c → isTypeChar c = false) :
    typeText (t.text ++ rest) = (t.text, rest) := by
  obtain ⟨c, cs, spelled, start, others⟩ := t.starts
  have stops : rest.takeWhile isTypeChar = [] ∧ rest.dropWhile isTypeChar = rest := by
    cases rest with
    | nil => exact ⟨rfl, rfl⟩
    | cons d ds => simp [ends d rfl]
  rw [spelled, List.cons_append, typeText, if_pos start, List.takeWhile_append_of_pos others,
    List.dropWhile_append_of_pos others, stops.1, stops.2, List.append_nil]

/-- The members come apart at the bars. -/
theorem typeMembers_text : typeMembers (String.ofList t.text) = t.members.map String.ofList := by
  have barless : ∀ m ∈ t.members, '|' ∉ m := by
    intro m listed bar
    have := (t.spelled m listed).isQualified _ bar
    exact absurd this (by decide)
  have nonempty : t.members ≠ [] := List.cons_ne_nil _ _
  rw [typeMembers, Text.splitOn, String.toList_ofList, text, Chars.splitOn_intercalate barless,
    if_neg nonempty]

end WrittenType

theorem IsTypeName.ofList_ne_empty {name : List Char} (h : IsTypeName name) : String.ofList name ≠ "" := by
  obtain ⟨c, cs, rfl, _⟩ := h
  simp

/-- What is called null names no class. -/
theorem IsTypeName.isBuiltin_of_null {name : List Char} (h : IsTypeName name)
    (null : Text.equalFold (String.ofList name) "null") : ClassName.isBuiltin (String.ofList name) := by
  have same : name.map LetterCase.foldChar = "null".toList := by
    simp only [Text.equalFold, String.toList_ofList, beq_iff_eq] at null
    exact null.trans (by decide)
  have lowered : name.map LetterCase.lowerChar = "null".toList := by
    rw [← same]
    refine List.map_congr_left fun c mem => ?_
    have ascii : c.toNat < 128 := by
      have := toNat_of_isQualified (h.isQualified c mem)
      omega
    rw [LetterCase.lowerChar, LetterCase.foldChar, if_pos ascii, if_pos ascii]
  have unmarked : Chars.after? "?".toList (String.ofList name).toList = none := by
    rw [Option.eq_none_iff_forall_ne_some]
    intro rest found
    have split : name = "?".toList ++ rest := String.toList_ofList.symm.trans (Chars.after?_eq_some.1 found)
    rw [split] at h
    exact absurd (h.isQualified '?' List.mem_cons_self) (by decide)
  rw [ClassName.isBuiltin, Text.dropStart, unmarked, Text.toLower, String.toList_ofList, lowered]
  decide

namespace WrittenParam

variable (p : WrittenParam)

/-! Marks -/

theorem dotted_starts : ∃ c more, p.dotted = c :: more ∧ c ∈ ".$".toList := by
  rw [dotted]
  cases p.variadic with
  | none => exact ⟨'$', p.name, rfl, by decide⟩
  | some gap => exact ⟨'.', _, rfl, by decide⟩

theorem marks_starts : ∃ c more, p.marks = c :: more ∧ c ∈ "&.$".toList := by
  rw [marks]
  cases p.reference with
  | none =>
    obtain ⟨c, more, spelled, mark⟩ := p.dotted_starts
    exact ⟨c, more, spelled, List.mem_cons_of_mem _ mark⟩
  | some gap => exact ⟨'&', _, rfl, by decide⟩

theorem isParamMark_of_head (gap : Gap) : ∀ c, (gap.1 ++ p.marks).head? = some c → isParamMark c := by
  intro c first
  obtain ⟨blanks, leads⟩ := gap
  cases blanks with
  | nil =>
    obtain ⟨d, more, spelled, mark⟩ := p.marks_starts
    rw [List.nil_append, spelled] at first
    obtain rfl : d = c := Option.some.inj first
    have marked : ∀ d ∈ "&.$".toList, isParamMark d := by decide
    exact marked d mark
  | cons b bs =>
    obtain rfl : b = c := Option.some.inj first
    simp [isParamMark, leads b List.mem_cons_self]

/-- Blanks and the reference mark are passed over. -/
theorem skip_reference (gap : Gap) :
    skipSpaces (skipChar '&' (skipSpaces (gap.1 ++ p.marks))) = p.dotted := by
  have bare {text : List Char} (h : ∃ c more, text = c :: more ∧ c ∈ "&.$".toList) :
      skipSpaces text = text := by
    obtain ⟨c, more, rfl, mark⟩ := h
    have marked : ∀ d ∈ "&.$".toList, ¬isSpace d := by decide
    refine skipSpaces_of_head fun d first => ?_
    obtain rfl : c = d := Option.some.inj first
    exact marked c mark
  rw [skipSpaces_append fun c mem => isSpace_of_isLead (gap.2 c mem), bare p.marks_starts, marks]
  obtain ⟨c, more, spelled, mark⟩ := p.dotted_starts
  have atDotted : skipSpaces p.dotted = p.dotted := bare ⟨c, more, spelled, List.mem_cons_of_mem _ mark⟩
  cases p.reference with
  | none =>
    have other : c ≠ '&' := by
      rintro rfl
      exact absurd mark (by decide)
    rw [Option.elim_none, List.nil_append]
    nth_rewrite 1 [spelled]
    rw [skipChar, if_neg other, ← spelled, atDotted]
  | some gap =>
    rw [Option.elim_some, List.cons_append, skipChar, if_pos rfl,
      skipSpaces_append fun c mem => isSpace_of_isLead (gap.2 c mem), atDotted]

/-- The variadic mark is passed over. -/
theorem skip_variadic :
    skipSpaces ((word? "..." p.dotted).getD p.dotted) = '$' :: p.name := by
  have atName : skipSpaces ('$' :: p.name) = '$' :: p.name := rfl
  rw [dotted]
  cases p.variadic with
  | none =>
    have absent : word? "..." ('$' :: p.name) = none := rfl
    rw [Option.elim_none, List.nil_append, absent, Option.getD_none, atName]
  | some gap =>
    have read : word? "..." ("...".toList ++ (gap.1 ++ '$' :: p.name)) = some (gap.1 ++ '$' :: p.name) :=
      Chars.after?_eq_some.2 rfl
    rw [Option.elim_some, List.append_assoc, read, Option.getD_some,
      skipSpaces_append fun c mem => isSpace_of_isLead (gap.2 c mem), atName]

theorem paramText?_body : paramText? p.body = some ⟨p.isMarked, p.typeAsWritten, p.name⟩ := by
  have named : identifier? p.name = some (p.name, []) := by
    rw [identifier?_eq_some_iff, List.append_nil]
    exact ⟨rfl, p.isName, fun c first => by cases first⟩
  have dollar : word? "$" ('$' :: p.name) = some p.name := Chars.after?_eq_some.2 rfl
  obtain ⟨c, more, spelled, mark⟩ := p.marks_starts
  have marked : ∀ d ∈ "&.$".toList, d ≠ '?' ∧ isTypeStart d = false ∧ isTypeChar d = false := by decide
  obtain ⟨unmarked, noType, ends⟩ := marked c mark
  cases typed : p.type with
  | none =>
    have whole : p.body = p.marks := by rw [body, typed, Option.elim_none]
    have atMarks : Php.typeText (skipChar '?' p.marks) = ([], p.marks) := by
      rw [spelled, skipChar, if_neg unmarked, Php.typeText, if_neg (by simp [noType])]
    have first : p.marks.head? ≠ some '?' := by
      rw [spelled]
      exact fun same => unmarked (Option.some.inj same)
    have skipped := p.skip_reference ⟨[], by simp⟩
    rw [List.nil_append] at skipped
    simp only [paramText?, whole, atMarks, skipped, p.skip_variadic, dollar, named, first, isMarked,
      typeAsWritten, typed, Option.bind_eq_bind, Option.bind_some, Option.elim_none]
    rfl
  | some entry =>
    obtain ⟨type, gap⟩ := entry
    have atType : Php.typeText (type.text ++ (gap.1 ++ p.marks)) = (type.text, gap.1 ++ p.marks) := by
      apply type.typeText_append
      exact fun d first => (isParamMark_cases (p.isParamMark_of_head gap d first)).1
    have atMark : skipChar '?' p.body = type.text ++ (gap.1 ++ p.marks) ∧
        (p.body.head? = some '?' ↔ type.marked) := by
      obtain ⟨d, ds, written, start, _⟩ := type.starts
      have other : d ≠ '?' := by
        rintro rfl
        exact absurd start (by decide)
      simp only [body, typed, Option.elim_some, WrittenType.mark]
      cases type.marked with
      | true => exact ⟨rfl, by simp⟩
      | false => simp [written, skipChar, other]
    simp only [paramText?, atMark, atType, p.skip_reference, p.skip_variadic, dollar, named, isMarked,
      typeAsWritten, typed, Option.bind_eq_bind, Option.bind_some, Option.elim_some, Bool.decide_eq_true]
    rfl

/-! From the first word to the name -/

theorem paramModifier?_body : paramModifier? p.body = none := by
  have untyped {rest : List Char} (ends : ∀ c, rest.head? = some c → isParamMark c) :
      paramModifier? ([] ++ rest) = none := paramModifier?_eq_none (by simp) (by decide) ends
  cases typed : p.type with
  | none =>
    rw [body, typed, Option.elim_none]
    exact untyped (p.isParamMark_of_head ⟨[], by simp⟩)
  | some entry =>
    obtain ⟨type, gap⟩ := entry
    simp only [body, typed, Option.elim_some, WrittenType.mark]
    cases type.marked with
    | true =>
      apply untyped
      intro c first
      obtain rfl : '?' = c := Option.some.inj first
      decide
    | false =>
      rw [if_neg Bool.false_ne_true, List.nil_append]
      exact paramModifier?_eq_none type.isTypeChar_of_mem type.notModifier (p.isParamMark_of_head gap)

theorem starts_body : Starts p.body := by
  cases typed : p.type with
  | none =>
    obtain ⟨c, more, spelled, mark⟩ := p.marks_starts
    have blankless : ∀ d ∈ "&.$".toList, isBlank d = false := by decide
    exact ⟨c, more, by rw [body, typed, Option.elim_none, spelled], blankless c mark⟩
  | some entry =>
    obtain ⟨type, gap⟩ := entry
    obtain ⟨c, cs, spelled, start, _⟩ := type.starts
    simp only [body, typed, Option.elim_some, WrittenType.mark]
    cases type.marked with
    | true => exact ⟨'?', _, rfl, by decide⟩
    | false =>
      refine ⟨c, cs ++ (gap.1 ++ p.marks), by simp [spelled], ?_⟩
      exact isBlank_eq_false_of_isTypeChar (isTypeChar_of_isTypeStart start)

theorem starts_words : Starts p.words := starts_modifiers p.modifiers p.starts_body

theorem skipParamModifiers_words : skipParamModifiers p.words = p.body :=
  skipParamModifiers_append p.modifiers p.starts_body p.paramModifier?_body

/-- The name ends the words. -/
theorem exists_words : ∃ front, p.words = front ++ p.name := by
  have ending : p.name <:+ p.words := by
    have inDotted : p.name <:+ p.dotted :=
      (List.suffix_cons '$' p.name).trans (List.suffix_append _ _)
    have inMarks : p.name <:+ p.marks := inDotted.trans (List.suffix_append _ _)
    refine List.IsSuffix.trans ?_ (List.suffix_append _ _)
    rw [body]
    cases p.type with
    | none => exact inMarks
    | some entry =>
      refine inMarks.trans ?_
      refine List.IsSuffix.trans (List.suffix_append entry.2.1 _) ?_
      exact (List.suffix_append _ _).trans (List.suffix_append _ _)
  obtain ⟨front, split⟩ := ending
  exact ⟨front, split.symm⟩

theorem trimWhile_words : Chars.trimWhile isBlank p.words = p.words := by
  apply Chars.trimWhile_eq_self p.starts_words.head
  obtain ⟨front, split⟩ := p.exists_words
  intro d last
  have mem : d ∈ p.name := by
    obtain ⟨c, cs, spelled, _⟩ := p.isName
    rw [split, spelled, List.getLast?_append_of_ne_nil _ (List.cons_ne_nil c cs)] at last
    rw [spelled]
    exact List.mem_of_getLast? last
  exact isBlank_eq_false_of_isQualified (p.isName.isQualified d mem)

theorem isTypeChar_of_mem_name : ∀ c ∈ p.name, isTypeChar c :=
  fun c mem => isTypeChar_of_isQualified (p.isName.isQualified c mem)

theorem isParamMark_of_mem_gap (gap : Gap) : ∀ c ∈ gap.1, isParamMark c := by
  intro c mem
  simp [isParamMark, gap.2 c mem]

theorem of_mem_marks : ∀ c ∈ p.marks, isTypeChar c ∨ isParamMark c := by
  intro c mem
  simp only [marks, dotted, List.mem_append, List.mem_cons] at mem
  rcases mem with inReference | inVariadic | rfl | inName
  · cases reference : p.reference with
    | none => simp [reference] at inReference
    | some gap =>
      rw [reference, Option.elim_some, List.mem_cons] at inReference
      rcases inReference with rfl | inGap
      · exact .inr (by decide)
      · exact .inr (isParamMark_of_mem_gap gap c inGap)
  · cases variadic : p.variadic with
    | none => simp [variadic] at inVariadic
    | some gap =>
      rw [variadic, Option.elim_some, List.mem_append] at inVariadic
      rcases inVariadic with inDots | inGap
      · have dots : ∀ d ∈ "...".toList, isParamMark d := by decide
        exact .inr (dots c inDots)
      · exact .inr (isParamMark_of_mem_gap gap c inGap)
  · exact .inr (by decide)
  · exact .inl (p.isTypeChar_of_mem_name c inName)

theorem of_mem_body : ∀ c ∈ p.body, isTypeChar c ∨ isParamMark c := by
  intro c mem
  rw [body] at mem
  cases typed : p.type with
  | none =>
    rw [typed] at mem
    exact p.of_mem_marks c mem
  | some entry =>
    obtain ⟨type, gap⟩ := entry
    simp only [typed, Option.elim_some, WrittenType.mark, List.mem_append] at mem
    rcases mem with inMark | inType | inGap | inMarks
    · have question : ∀ d ∈ (if type.marked then ['?'] else []), isParamMark d := by
        cases type.marked <;> decide
      exact .inr (question c inMark)
    · exact .inl (type.isTypeChar_of_mem c inType)
    · exact .inr (isParamMark_of_mem_gap gap c inGap)
    · exact p.of_mem_marks c inMarks

/-- Of what the words are made. -/
theorem of_mem_words : ∀ c ∈ p.words,
    LetterCase.foldChar c ∈ modifierLetters ∨ isTypeChar c ∨ isParamMark c := by
  intro c mem
  rcases List.mem_append.1 mem with inModifiers | inBody
  · obtain ⟨m, _, inModifier⟩ := List.mem_flatMap.1 inModifiers
    rcases List.mem_append.1 inModifier with inWord | blank
    · exact .inl (m.isModifier.letters c inWord)
    · exact .inr (.inr (by simp [isParamMark, m.after.2.2 c blank]))
  · exact .inr (p.of_mem_body c inBody)

/-- None of the characters stands in the words at which a parameter list is divided. -/
theorem not_mem_words {c : Char} (h : c ∈ "=,)#".toList) : c ∉ p.words := by
  have apart : ∀ d ∈ "=,)#".toList,
      ¬(LetterCase.foldChar d ∈ modifierLetters ∨ isTypeChar d ∨ isParamMark d) := by decide
  exact fun mem => apart c h (p.of_mem_words c mem)

theorem not_mem_gap {gap : Gap} {c : Char} (h : c ∈ "=,)#".toList) : c ∉ gap.1 := by
  have apart : ∀ d ∈ "=,)#".toList, ¬isLead d := by decide
  exact fun mem => apart c h (gap.2 c mem)

/-- A parameter goes on neither beyond a comma nor beyond a closing parenthesis. -/
theorem not_mem_text {c : Char} (h : c ∈ ",)".toList) : c ∉ p.text := by
  have known : c ∈ "=,)#".toList := by
    revert c
    decide
  simp only [text, List.mem_append, not_or]
  refine ⟨not_mem_gap known, p.not_mem_words known, not_mem_gap known, ?_⟩
  rw [valueText]
  cases value : p.value with
  | none => simp
  | some text =>
    obtain ⟨comma, paren⟩ := p.value_inside text value
    have listed : c ∈ [',', ')'] := h
    simp only [List.mem_cons, List.not_mem_nil, or_false] at listed
    rcases listed with rfl | rfl
    · simp [comma]
    · simp [paren]

/-! What is read of a parameter -/

theorem attribute?_eq_none {c : Char} (h : c ≠ '#') (more : List Char) : attribute? (c :: more) = none := by
  have absent : word? "#[" (c :: more) = none := by
    rw [Option.eq_none_iff_forall_ne_some]
    intro rest found
    exact h (List.cons.inj (Chars.after?_eq_some.1 found)).1
  simp [attribute?, absent]

/-- An attribute is found in a default only. -/
theorem erase_text : Scan.erase attribute? p.text =
    p.lead.1 ++ (p.words ++ (p.after.1 ++ Scan.erase attribute? p.valueText)) := by
  have kept {front : List Char} (absent : '#' ∉ front) (rest : List Char) :
      Scan.erase attribute? (front ++ rest) = front ++ Scan.erase attribute? rest := by
    apply Scan.erase_append
    intro c mem more
    apply attribute?_eq_none
    rintro rfl
    exact absent mem
  rw [text, kept (not_mem_gap (by decide)), kept (p.not_mem_words (by decide)), kept (not_mem_gap (by decide))]

theorem isBlank_of_mem_gap {gap : Gap} : ∀ c ∈ gap.1, isBlank c :=
  fun c mem => isBlank_of_isSpace (isSpace_of_isLead (gap.2 c mem))

theorem trim_of_none (h : p.value = none) :
    Chars.trimWhile isBlank (Scan.erase attribute? p.text) = p.words := by
  have bare : Scan.erase attribute? p.valueText = [] := by
    rw [valueText, h]
    rfl
  rw [erase_text, bare, List.append_nil, Chars.trimWhile_append_left isBlank_of_mem_gap,
    Chars.trimWhile_append_right isBlank_of_mem_gap, trimWhile_words]

/-- What stands before the equals sign is kept as it is. -/
theorem trim_of_some {value : List Char} (h : p.value = some value) :
    ∃ rest, Chars.trimWhile isBlank (Scan.erase attribute? p.text) = (p.words ++ p.after.1) ++ '=' :: rest := by
  have sign : Scan.erase attribute? p.valueText = '=' :: Scan.erase attribute? value := by
    have kept := Scan.erase_append (show ∀ c ∈ ['='], ∀ more, attribute? (c :: more) = none by
      intro c mem
      obtain rfl := List.mem_singleton.1 mem
      exact attribute?_eq_none (by decide)) value
    rw [valueText, h]
    exact kept
  obtain ⟨c, more, spelled, blankless⟩ := p.starts_words
  refine ⟨Chars.dropRightWhile isBlank (Scan.erase attribute? value), ?_⟩
  rw [erase_text, sign, Chars.trimWhile_append_left isBlank_of_mem_gap, ← List.append_assoc, Chars.trimWhile]
  have front : (p.words ++ p.after.1 ++ '=' :: Scan.erase attribute? value).dropWhile isBlank =
      p.words ++ p.after.1 ++ '=' :: Scan.erase attribute? value := by
    rw [spelled]
    exact List.dropWhile_cons_of_neg (by simp [blankless])
  rw [front, Chars.dropRightWhile_append_cons (by decide)]

theorem ne_empty_of_mem {m : String} (h : m ∈ p.members.map String.ofList) : m ≠ "" := by
  obtain ⟨name, listed, rfl⟩ := List.mem_map.1 h
  cases typed : p.type with
  | none => simp [members, typed] at listed
  | some entry =>
    rw [members, typed] at listed
    exact (entry.1.spelled name listed).ofList_ne_empty

/-- The first name that is no builtin type is the class. -/
theorem classMember_type : classMember (String.ofList p.typeAsWritten) =
    ((p.members.map String.ofList).find? fun m => !ClassName.isBuiltin m).getD "" := by
  cases typed : p.type with
  | none =>
    simp only [typeAsWritten, members, typed, Option.elim_none]
    decide
  | some entry =>
    obtain ⟨type, gap⟩ := entry
    simp only [typeAsWritten, members, typed, Option.elim_some, classMember, type.typeMembers_text]
    refine congrArg (·.getD "") (List.find?_congr fun m listed => ?_)
    obtain ⟨name, isMember, rfl⟩ := List.mem_map.1 listed
    have spelled := type.spelled name isMember
    cases builtin : ClassName.isBuiltin (String.ofList name) with
    | true => simp
    | false =>
      have noNull : Text.equalFold (String.ofList name) "null" = false := by
        rw [Bool.eq_false_iff]
        intro null
        simp [spelled.isBuiltin_of_null null] at builtin
      simp [noNull, spelled.ofList_ne_empty]

theorem nullMember_type : (typeMembers (String.ofList p.typeAsWritten)).any (Text.equalFold · "null") =
    (p.members.map String.ofList).any (Text.equalFold · "null") := by
  cases typed : p.type with
  | none =>
    simp only [typeAsWritten, members, typed, Option.elim_none]
    decide
  | some entry =>
    obtain ⟨type, gap⟩ := entry
    simp only [typeAsWritten, members, typed, Option.elim_some, type.typeMembers_text]

/-- A parameter is read back, on whatever line and in whatever file it stands. -/
theorem param?_text (order : Dict.Listing String) (imports : Dict String) (space : String)
    (line : Nat) :
    param? order imports space line p.text = some (p.meaning order imports space line) := by
  have words := p.paramText?_body
  rw [← p.skipParamModifiers_words] at words
  have className : (if classMember (String.ofList p.typeAsWritten) = "" then ""
      else ClassName.resolve order imports space (classMember (String.ofList p.typeAsWritten))) =
      (p.meaning order imports space line).className := by
    rw [classMember_type, meaning]
    cases found : (p.members.map String.ofList).find? fun m => !ClassName.isBuiltin m with
    | none => rfl
    | some m =>
      rw [Option.getD_some, Option.elim_some, if_neg (p.ne_empty_of_mem (List.mem_of_find?_eq_some found))]
  have unsplit : ∃ c more, p.words = c :: more := by
    obtain ⟨c, more, spelled, _⟩ := p.starts_words
    exact ⟨c, more, spelled⟩
  obtain ⟨c, more, spelled⟩ := unsplit
  cases value : p.value with
  | none =>
    have whole : beforeDefault p.words = none := by
      rw [beforeDefault, Chars.cut_singleton_eq_none (p.not_mem_words (by decide))]
      rfl
    have nonempty : p.words.isEmpty = false := by rw [spelled]; rfl
    simp only [param?, p.trim_of_none value, nonempty, whole, words, className, nullMember_type,
      Option.bind_eq_bind, Option.bind_some]
    simp [meaning, value]
  | some default =>
    obtain ⟨rest, trimmed⟩ := p.trim_of_some value
    have front : beforeDefault (p.words ++ p.after.1 ++ '=' :: rest) = some (p.words ++ p.after.1) := by
      have absent : '=' ∉ p.words ++ p.after.1 := by
        rw [List.mem_append, not_or]
        exact ⟨p.not_mem_words (by decide), not_mem_gap (by decide)⟩
      rw [beforeDefault, Chars.cut_singleton_append absent]
      rfl
    have nonempty : (p.words ++ p.after.1 ++ '=' :: rest).isEmpty = false := by simp
    have back : Chars.trimWhile isBlank (p.words ++ p.after.1) = p.words := by
      rw [Chars.trimWhile_append_right isBlank_of_mem_gap, trimWhile_words]
    simp only [param?, trimmed, nonempty, front, back, words, className, nullMember_type,
      Option.bind_eq_bind, Option.bind_some]
    simp [meaning, value]

end WrittenParam

end ShopLint.Php
