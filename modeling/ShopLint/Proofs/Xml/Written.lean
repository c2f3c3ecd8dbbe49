import ShopLint.Proofs.Text.Search
import ShopLint.Xml.Printer
import Mathlib.Data.List.TakeWhile

/-!
Reading back the pieces of a written document: escaped text, names, attributes, tags and the text between
tags. Whatever follows a piece, the reader takes it as it was meant and stops where it ends.
-/

namespace ShopLint.Xml

/-- All characters of the text are read as they were: a document may hold them, and none is a carriage
return, which would be read as a newline. -/
def Kept (text : String) : Prop := ∀ c ∈ text.toList, isXmlChar c ∧ c ≠ '\r'

instance (text : String) : Decidable (Kept text) := List.decidableBAll _ text.toList

/-! Escaped text -/

section

variable {c : Char} {text : String}

theorem decodeFrom_escapeChar (allowed : isXmlChar c) (noReturn : c ≠ '\r') (rest : List Char) :
    decodeFrom true 0 (escapeChar c ++ rest) = c :: decodeFrom true 0 rest := by
  by_cases amp : c = '&'
  · subst amp
    rfl
  by_cases lt : c = '<'
  · subst lt
    rfl
  by_cases gt : c = '>'
  · subst gt
    rfl
  by_cases apos : c = '\''
  · subst apos
    rfl
  by_cases quot : c = '"'
  · subst quot
    rfl
  simp [escapeChar, amp, lt, gt, apos, quot, allowed, decodeFrom, noReturn]

theorem decodeFrom_escape (h : Kept text) : decodeFrom true 0 (escape text) = text.toList := by
  rw [escape]
  unfold Kept at h
  generalize text.toList = cs at h ⊢
  induction cs with
  | nil => rfl
  | cons c cs ih =>
    obtain ⟨⟨allowed, noReturn⟩, others⟩ := List.forall_mem_cons.1 h
    rw [List.flatMap_cons, decodeFrom_escapeChar allowed noReturn, ih others]

/-- A character that ends neither a text nor a value. -/
def isInner (c : Char) : Bool := c ≠ '<' && c ≠ '>' && c ≠ '"'

theorem escapeChar_inner (c : Char) : (escapeChar c).all isInner := by
  unfold escapeChar
  split_ifs with amp lt gt apos quot allowed
  · decide
  · decide
  · decide
  · decide
  · decide
  · simp [isInner, lt, gt, quot]
  · decide

theorem mem_escape (h : c ∈ escape text) : c ≠ '<' ∧ c ≠ '>' ∧ c ≠ '"' := by
  obtain ⟨d, _, mem⟩ := List.mem_flatMap.1 h
  have inner := List.all_eq_true.1 (escapeChar_inner d) c mem
  simpa [isInner, and_assoc] using inner

theorem decoded?_escape (h : Kept text) : decoded? true (escape text) = some text := by
  have allowed : text.toList.all isXmlChar := List.all_eq_true.2 fun c mem => (h c mem).1
  simp only [decoded?, decodeFrom_escape h, allowed, if_true, String.ofList_toList]

theorem quotedValue?_escape (h : Kept text) (rest : List Char) :
    quotedValue? '"' (escape text ++ '"' :: rest) = some (text, rest) := by
  have inside : ∀ c ∈ escape text, (decide (c ≠ '"') && decide (c ≠ '<')) = true := by
    intro c mem
    obtain ⟨lt, _, quot⟩ := mem_escape mem
    simp [lt, quot]
  have stop : (decide ('"' ≠ '"') && decide ('"' ≠ '<')) = false := by decide
  rw [quotedValue?, Chars.takeWhile_until inside stop, Chars.dropWhile_until inside stop, decoded?_escape h]
  rfl

theorem charData?_escape (h : Kept text) (rest : List Char) :
    charData? (escape text ++ '<' :: rest) = some (.text text, '<' :: rest) := by
  have inside : ∀ c ∈ escape text, decide (c ≠ '<') = true :=
    fun c mem => decide_eq_true (mem_escape mem).1
  have noEnd : Chars.contains cdataEnd (escape text) = false := by
    rw [Bool.eq_false_iff, ne_eq, Chars.contains_iff_isInfix]
    intro found
    exact (mem_escape (found.subset (show '>' ∈ cdataEnd by decide))).2.1 rfl
  have stop : decide ('<' ≠ '<') = false := by decide
  rw [charData?, Chars.takeWhile_until inside stop, Chars.dropWhile_until inside stop, decoded?_escape h,
    noEnd]
  rfl

end

/-! Names -/

/-- The name can be written: its text is that of a name, and divides into the same prefix and rest. -/
structure Name.Writable (name : Name) : Prop where
  isName : Xml.isName name.text
  readOn : name.text.all isNameByte
  divided : Name.ofText? name.text = some name

/-- What a name starts with is none of the marks that stand behind an opening bracket. -/
theorem Name.Writable.first {name : Name} (h : name.Writable) :
    ∃ c cs, name.text = c :: cs ∧ isNameByte c ∧ c ≠ '/' ∧ c ≠ '?' ∧ c ≠ '!' := by
  have isName := h.isName
  cases spelled : name.text with
  | nil => simp [spelled, Xml.isName] at isName
  | cons c cs =>
    have readOn : isNameByte c := List.all_eq_true.1 h.readOn c (by simp [spelled])
    refine ⟨c, cs, rfl, readOn, ?_, ?_, ?_⟩
    all_goals
      rintro rfl
      revert readOn
      decide

theorem name?_text {name : Name} (h : name.Writable) {c : Char} (stop : isNameByte c = false)
    (rest : List Char) : name? (name.text ++ c :: rest) = some (name, c :: rest) := by
  have readOn := List.all_eq_true.1 h.readOn
  simp [name?, nameText?, Chars.takeWhile_until readOn stop, Chars.dropWhile_until readOn stop,
    h.isName, h.divided]

/-! Attributes -/

structure Attr.Writable (a : Attr) : Prop where
  named : a.name.Writable
  kept : Kept a.value

theorem attr?_text {a : Attr} (h : a.Writable) (rest : List Char) :
    attr? (a.text.tail ++ rest) = some (a, rest) := by
  have spelled : a.text.tail ++ rest =
      a.name.text ++ '=' :: '"' :: (escape a.value ++ '"' :: rest) := by
    simp [Attr.text]
  rw [spelled, attr?, name?_text h.named (by decide)]
  simp [skipXmlBlanks, isXmlBlank, value?, quotedValue?_escape h.kept]

/-- The end of an opening tag. -/
def tagEnd (closed : Bool) : List Char := if closed then ['/', '>'] else ['>']

theorem attrs?_of_attr {fuel : Nat} {text : List Char} {c : Char} {cs : List Char}
    (found : skipXmlBlanks text = c :: cs) (named : isNameByte c) :
    attrs? (fuel + 1) text = do
      let (attr, text) ← attr? (c :: cs)
      let (attrs, closed, rest) ← attrs? fuel text
      return (attr :: attrs, closed, rest) := by
  rw [attrs?, found]
  split
  next eq => cases eq
  next eq =>
    obtain rfl := (List.cons.inj eq).1
    exact absurd named (by decide)
  next eq =>
    obtain rfl := (List.cons.inj eq).1
    exact absurd named (by decide)
  next => rfl

theorem attrs?_text {attrs : List Attr} (h : ∀ a ∈ attrs, a.Writable) {fuel : Nat}
    (enough : attrs.length < fuel) (closed : Bool) (rest : List Char) :
    attrs? fuel (attrs.flatMap Attr.text ++ tagEnd closed ++ rest) = some (attrs, closed, rest) := by
  induction attrs generalizing fuel with
  | nil =>
    obtain ⟨fuel, rfl⟩ := Nat.exists_eq_succ_of_ne_zero (Nat.ne_of_gt enough)
    cases closed <;> rfl
  | cons a attrs ih =>
    obtain ⟨writable, others⟩ := List.forall_mem_cons.1 h
    obtain ⟨fuel, rfl⟩ := Nat.exists_eq_succ_of_ne_zero (Nat.ne_of_gt (Nat.zero_lt_of_lt enough))
    obtain ⟨c, cs, spelled, named, _⟩ := writable.named.first
    obtain ⟨tail, starts⟩ : ∃ tail, a.text.tail = c :: tail := by simp [Attr.text, spelled]
    have text_eq : (a :: attrs).flatMap Attr.text ++ tagEnd closed ++ rest =
        ' ' :: (a.text.tail ++ (attrs.flatMap Attr.text ++ tagEnd closed ++ rest)) := by
      simp [Attr.text]
    have notBlank : ¬isXmlBlank c := by
      intro blank
      simp only [isXmlBlank, Bool.or_eq_true, decide_eq_true_eq] at blank
      rcases blank with ((rfl | rfl) | rfl) | rfl <;> revert named <;> decide
    have found : skipXmlBlanks (' ' :: (a.text.tail ++ (attrs.flatMap Attr.text ++ tagEnd closed ++ rest))) =
        a.text.tail ++ (attrs.flatMap Attr.text ++ tagEnd closed ++ rest) := by
      rw [skipXmlBlanks, List.dropWhile_cons_of_pos (by decide), starts, List.cons_append,
        List.dropWhile_cons_of_neg notBlank]
    have read := ih others (Nat.lt_of_succ_lt_succ enough)
    rw [text_eq, attrs?_of_attr (found.trans (by rw [starts, List.cons_append])) named, ← List.cons_append,
      ← starts, attr?_text writable]
    simp only [read, Option.bind_eq_bind, Option.bind_some]
    rfl

/-- Each attribute takes at least one character. -/
theorem length_le_flatMap_text (attrs : List Attr) : attrs.length ≤ (attrs.flatMap Attr.text).length := by
  induction attrs with
  | nil => exact Nat.zero_le _
  | cons a attrs ih =>
    simp only [List.flatMap_cons, Attr.text, List.length_append, List.length_cons]
    omega

/-- Attributes of different names are all kept, in their order. -/
theorem foldl_setAttr {attrs others : List Attr} (distinct : (attrs ++ others).Pairwise (·.name ≠ ·.name)) :
    others.foldl setAttr attrs = attrs ++ others := by
  induction others generalizing attrs with
  | nil => simp
  | cons a others ih =>
    have fresh : ∀ b ∈ attrs, b.name ≠ a.name :=
      fun b mem => (List.pairwise_append.1 distinct).2.2 b mem a List.mem_cons_self
    have added : setAttr attrs a = attrs ++ [a] := by
      rw [setAttr, if_neg]
      simpa using fresh
    rw [List.foldl_cons, added, ih (by simpa using distinct)]
    simp

/-! Tags -/

/-- An opening tag can be written. -/
structure TagWritable (name : Name) (attrs : List Attr) : Prop where
  named : name.Writable
  writable : ∀ a ∈ attrs, a.Writable
  distinct : attrs.Pairwise (·.name ≠ ·.name)

section

variable {name : Name} {attrs : List Attr}

theorem openingTag?_text (h : TagWritable name attrs) (closed : Bool) (rest : List Char) :
    openingTag? (name.text ++ attrs.flatMap Attr.text ++ tagEnd closed ++ rest) =
      some (if closed then [.opening name attrs, .closing name] else [.opening name attrs], rest) := by
  obtain ⟨c, cs, next, stop⟩ : ∃ c cs, attrs.flatMap Attr.text ++ tagEnd closed ++ rest = c :: cs ∧
      isNameByte c = false := by
    cases attrs with
    | nil => cases closed <;> exact ⟨_, _, rfl, by decide⟩
    | cons a attrs => exact ⟨' ', _, rfl, by decide⟩
  have enough : attrs.length < (attrs.flatMap Attr.text ++ tagEnd closed ++ rest).length + 1 := by
    have := length_le_flatMap_text attrs
    simp only [List.length_append]
    omega
  have read := attrs?_text h.writable enough closed rest
  have split : name.text ++ attrs.flatMap Attr.text ++ tagEnd closed ++ rest =
      name.text ++ (attrs.flatMap Attr.text ++ tagEnd closed ++ rest) := by simp
  have kept : attrs.foldl setAttr [] = attrs := foldl_setAttr (by simpa using h.distinct)
  rw [split, openingTag?, next, name?_text h.named stop, ← next]
  simp only [Option.bind_eq_bind, Option.bind_some, read, kept]
  rfl

theorem next?_opening (h : TagWritable name attrs) (closed : Bool) (rest : List Char) :
    next? ('<' :: (name.text ++ attrs.flatMap Attr.text ++ tagEnd closed ++ rest)) =
      some (if closed then [.opening name attrs, .closing name] else [.opening name attrs], rest) := by
  obtain ⟨c, cs, spelled, _, notClosing, notInstruction, notDeclaration⟩ := h.named.first
  rw [← openingTag?_text h]
  simp only [spelled, List.cons_append]
  unfold next?
  split
  next eq => exact absurd (List.cons.inj (List.cons.inj eq).2).1 notClosing
  next eq => exact absurd (List.cons.inj (List.cons.inj eq).2).1 notInstruction
  next eq => exact absurd (List.cons.inj (List.cons.inj eq).2).1 notDeclaration
  next eq => rw [(List.cons.inj eq).2]
  next other => exact absurd rfl (other _)

theorem next?_closing (h : name.Writable) (rest : List Char) :
    next? ('<' :: '/' :: (name.text ++ '>' :: rest)) = some ([.closing name], rest) := by
  have read := name?_text h (show isNameByte '>' = false by decide) rest
  simp [next?, closingTag?, read, skipXmlBlanks, isXmlBlank]

/-- A text that is not empty stands between tags. -/
theorem next?_text {content : String} (kept : Kept content) (nonempty : content ≠ "") (rest : List Char) :
    next? (escape content ++ '<' :: rest) = some ([.text content], '<' :: rest) := by
  have read := charData?_escape kept rest
  cases spelled : escape content with
  | nil =>
    have none := decodeFrom_escape kept
    rw [spelled] at none
    exact absurd (String.toList_eq_nil_iff.1 none.symm) nonempty
  | cons c cs =>
    have notMark : c ≠ '<' := (mem_escape (show c ∈ escape content by simp [spelled])).1
    rw [spelled, List.cons_append] at read
    rw [List.cons_append]
    unfold next?
    split
    next eq => exact absurd (List.cons.inj eq).1 notMark
    next eq => exact absurd (List.cons.inj eq).1 notMark
    next eq => exact absurd (List.cons.inj eq).1 notMark
    next eq => exact absurd (List.cons.inj eq).1 notMark
    next =>
      rw [read]
      rfl

end

/-! Comments -/

section

variable {text inside rest : List Char}

theorem next?_comment (found : Chars.cut ['-', '-'] text = some (inside, '>' :: rest)) :
    next? ('<' :: '!' :: '-' :: '-' :: text) = some ([.comment], rest) := by
  simp [next?, declaration?, comment?, found]

/-- Two hyphens that do not end the comment make the document unreadable. -/
theorem next?_brokenComment (found : Chars.cut ['-', '-'] text = some (inside, rest))
    (notEnd : rest.head? ≠ some '>') : next? ('<' :: '!' :: '-' :: '-' :: text) = none := by
  have refused : comment? text = none := by
    simp only [comment?, found, Option.bind_eq_bind, Option.bind_some]
    split
    · exact absurd rfl notEnd
    · rfl
  simp [next?, declaration?, refused]

end

end ShopLint.Xml
