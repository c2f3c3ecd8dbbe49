import ShopLint.Proofs.Php.Header.LeadWord
import ShopLint.Proofs.Php.Function.Declaration
import ShopLint.Proofs.Php.Interfaces

/-!
The namespace and the imports of a header as they are written, with any blanks between their words. Each is
read back with its names, and on no line within it does anything start.
-/

namespace ShopLint.Php

/-- Blanks, perhaps none. -/
abbrev Blanks := { text : List Char // ∀ c ∈ text, isSpace c }

/-- At least one blank. -/
abbrev Spacing := { text : List Char // text ≠ [] ∧ ∀ c ∈ text, isSpace c }

/-- The text does not go on with the characters of a name. -/
def Ends (text : List Char) : Prop := ∀ c, text.head? = some c → isQualified c = false

/-- The text does not go on with a blank. -/
def Starting (text : List Char) : Prop := ∀ c, text.head? = some c → ¬isSpace c

section

variable {text more : List Char}

theorem isQualified_eq_false_of_isSpace {c : Char} (h : isSpace c) : isQualified c = false := by
  rw [Bool.eq_false_iff]
  exact fun named => not_isSpace_of_isQualified named h

theorem ends_spacing (gap : Spacing) (more : List Char) : Ends (gap.1 ++ more) := by
  obtain ⟨blanks, nonempty, spaces⟩ := gap
  obtain ⟨b, bs, rfl⟩ := List.exists_cons_of_ne_nil nonempty
  intro c first
  obtain rfl : b = c := Option.some.inj first
  exact isQualified_eq_false_of_isSpace (spaces b List.mem_cons_self)

theorem ends_cons {c : Char} (h : isQualified c = false) (more : List Char) : Ends (c :: more) := by
  intro d first
  obtain rfl : c = d := Option.some.inj first
  exact h

theorem ends_blanks (blanks : Blanks) (h : Ends more) : Ends (blanks.1 ++ more) := by
  obtain ⟨blanks, spaces⟩ := blanks
  cases blanks with
  | nil => exact h
  | cons b bs => exact ends_spacing ⟨b :: bs, List.cons_ne_nil b bs, spaces⟩ more

theorem starting_cons {c : Char} (h : ¬isSpace c) (more : List Char) : Starting (c :: more) := by
  intro d first
  obtain rfl : c = d := Option.some.inj first
  exact h

theorem spaces?_spacing (gap : Spacing) (h : Starting more) : spaces? (gap.1 ++ more) = some more :=
  spaces?_eq_some_iff.2 ⟨gap.1, gap.2.1, gap.2.2, rfl, h⟩

/-- Blanks that may be missing are read up to where they end, if there are any. -/
theorem spaces?_blanks (blanks : Blanks) (h : Starting more) :
    spaces? (blanks.1 ++ more) = none ∨ spaces? (blanks.1 ++ more) = some more := by
  cases passed : spaces? (blanks.1 ++ more) with
  | none => exact .inl rfl
  | some after =>
    rw [eq_skipSpaces_of_spaces? passed, skipSpaces_append blanks.2, skipSpaces_of_head h]
    exact .inr rfl

theorem skipSpaces_blanks (blanks : Blanks) (h : Starting more) : skipSpaces (blanks.1 ++ more) = more := by
  rw [skipSpaces_append blanks.2, skipSpaces_of_head h]

theorem word?_append (word : String) (more : List Char) : word? word (word.toList ++ more) = some more :=
  Chars.after?_eq_some.2 rfl

theorem firstWord_spacing (gap : Spacing) (more : List Char) : firstWord (gap.1 ++ more) = [] := by
  obtain ⟨blanks, nonempty, spaces⟩ := gap
  obtain ⟨b, bs, rfl⟩ := List.exists_cons_of_ne_nil nonempty
  exact firstWord_blank (spaces b List.mem_cons_self) _

theorem Ends.append (h : Ends text) (nonempty : text ≠ []) (more : List Char) : Ends (text ++ more) := by
  obtain ⟨c, cs, rfl⟩ := List.exists_cons_of_ne_nil nonempty
  exact h

/-- A name is the stretch up to where it ends. -/
theorem Ends.stretch {name : List Char} (h : Ends more) (named : ∀ c ∈ name, isQualified c) :
    (name ++ more).takeWhile isQualified = name ∧ (name ++ more).dropWhile isQualified = more := by
  have stops : more.takeWhile isQualified = [] ∧ more.dropWhile isQualified = more := by
    cases more with
    | nil => exact ⟨rfl, rfl⟩
    | cons d ds => simp [h d rfl]
  rw [List.takeWhile_append_of_pos named, List.dropWhile_append_of_pos named, stops.1, stops.2, List.append_nil]
  exact ⟨rfl, rfl⟩

theorem Ends.not_isWord (h : Ends text) : ∀ c, text.head? = some c → ¬isWord c := by
  intro c first word
  have named := isQualified_of_isWord word
  rw [h c first] at named
  cases named

/-! Statements and their heads -/

/-- Whatever is written after blanks, the heads are the same. -/
theorem AllHeads.spaced {P : List Char → Prop} {blanks rest : List Char} (spaces : ∀ c ∈ blanks, isSpace c)
    (h : AllHeads P more rest) : AllHeads P (blanks ++ more) rest := (allHeads_blanks spaces).append h

/-- A name that is no lead word starts no statement. -/
theorem AllHeads.named {rest : List Char} (named : ∀ c ∈ text, isQualified c) (plain : text ∉ leadWords)
    (ends : Ends (more ++ rest)) (h : AllHeads Quiet more rest) : AllHeads Quiet (text ++ more) rest :=
  (allHeads_word (fun c mem => not_isSpace_of_isQualified (named c mem))
    (quiet_append named plain ends)).append h

/-- Neither does a mark. -/
theorem allHeads_mark {c : Char} (h : isQualified c = false) (noSpace : ¬isSpace c) (rest : List Char) :
    AllHeads Quiet [c] rest := by
  have quiet : Quiet ([] ++ c :: rest) := quiet_append (by simp) (by decide) (ends_cons h rest)
  exact allHeads_word (by simpa using noSpace) quiet

/-- Of a statement that is quiet after its word, only what is read at its start counts. -/
theorem filterMap_headsIn_statement {β : Type} {read : List Char → Option β} {word rest : List Char}
    (unread : ∀ head, Quiet head → read head = none) (nonempty : word ≠ []) (h : ∀ c ∈ word, ¬isSpace c)
    (quiet : AllHeads Quiet more rest) :
    (headsIn true (word ++ more) rest).filterMap read = (read (word ++ more ++ rest)).toList := by
  have inner : AllHeads (fun head => read head = none) more rest :=
    fun fresh head mem => unread head (quiet fresh head mem)
  rw [headsIn_append, headsIn_word nonempty h, if_pos rfl, List.filterMap_append, inner.filterMap_eq_nil,
    List.append_nil, List.append_assoc]
  cases found : read (word ++ (more ++ rest)) with
  | none => rw [List.filterMap_cons_none found, List.filterMap_nil, Option.toList_none]
  | some value => rw [List.filterMap_cons_some found, List.filterMap_nil, Option.toList_some]

end

/-! Names -/

/-- A name without backslashes that is no lead word. -/
abbrev PlainName := { text : List Char // IsIdentifier text ∧ text ∉ leadWords }

/-- A name whose segments stand with backslashes between them. -/
structure QualifiedName where
  space : List (List Char)
  last : List Char
  spelled : ∀ segment ∈ space ++ [last], IsIdentifier segment
  plain : ['\\'].intercalate (space ++ [last]) ∉ leadWords

def QualifiedName.text (n : QualifiedName) : List Char := ['\\'].intercalate (n.space ++ [n.last])

/-- A name that may start with a backslash. -/
structure Reference where
  rooted : Bool
  name : QualifiedName

def Reference.text (r : Reference) : List Char := (if r.rooted then ['\\'] else []) ++ r.name.text

theorem IsIdentifier.starting {name : List Char} (h : IsIdentifier name) (more : List Char) :
    Starting (name ++ more) := by
  obtain ⟨c, cs, rfl, start, _⟩ := h
  exact starting_cons (not_isSpace_of_isQualified (isQualified_of_isWord (isWord_of_isNameStart start))) _

namespace QualifiedName

variable (n : QualifiedName)

theorem starts : ∃ c cs, n.text = c :: cs ∧ isNameStart c ∧ ∀ d ∈ cs, isQualified d := by
  obtain ⟨first, others, split⟩ := List.exists_cons_of_ne_nil (List.append_ne_nil_of_right_ne_nil n.space
    (List.cons_ne_nil n.last []))
  have spelled := n.spelled
  rw [split] at spelled
  obtain ⟨c, cs, written, start, word⟩ := spelled first List.mem_cons_self
  refine ⟨c, cs ++ others.flatMap ('\\' :: ·), ?_, start, fun d mem => ?_⟩
  · rw [text, split, Chars.intercalate_cons, written, List.cons_append]
  · rcases List.mem_append.1 mem with inFirst | inOthers
    · exact isQualified_of_isWord (word d inFirst)
    · obtain ⟨segment, listed, inSegment⟩ := List.mem_flatMap.1 inOthers
      rcases List.mem_cons.1 inSegment with rfl | inName
      · decide
      · exact (spelled segment (List.mem_cons_of_mem _ listed)).isQualified d inName

theorem isQualified_of_mem : ∀ c ∈ n.text, isQualified c := by
  obtain ⟨c, cs, written, start, others⟩ := n.starts
  rw [written]
  exact List.forall_mem_cons.2 ⟨isQualified_of_isWord (isWord_of_isNameStart start), others⟩

/-- A name is read as far as it goes. -/
theorem qualified?_append {more : List Char} (ends : Ends more) :
    qualified? (n.text ++ more) = some (n.text, more) := by
  obtain ⟨c, cs, written, start, others⟩ := n.starts
  obtain ⟨taken, left⟩ := ends.stretch others
  rw [written, List.cons_append, qualified?, if_pos start, taken, left]

theorem starting (more : List Char) : Starting (n.text ++ more) := by
  obtain ⟨c, cs, written, start, _⟩ := n.starts
  rw [written]
  exact starting_cons (not_isSpace_of_isQualified (isQualified_of_isWord (isWord_of_isNameStart start))) _

/-- The last segment comes after the last backslash. -/
theorem lastSegment_text : ClassName.lastSegment (String.ofList n.text) = String.ofList n.last := by
  have absent : '\\' ∉ n.last := by
    intro mem
    obtain ⟨c, cs, written, start, others⟩ := n.spelled n.last (List.mem_append_right _ List.mem_cons_self)
    rw [written] at mem
    rcases List.mem_cons.1 mem with rfl | inName
    · exact absurd start (by decide)
    · exact absurd (others _ inName) (by decide)
  have cut : Chars.cutLast "\\".toList n.text = none ∧ n.text = n.last ∨
      ∃ before, Chars.cutLast "\\".toList n.text = some (before, n.last) := by
    rw [text]
    cases n.space with
    | nil =>
      rw [List.nil_append, List.intercalate_singleton]
      exact .inl ⟨Chars.cutLast_singleton_eq_none absent, rfl⟩
    | cons first others =>
      rw [List.cons_append, Chars.intercalate_cons, List.flatMap_append, List.flatMap_singleton,
        ← List.append_assoc]
      exact .inr ⟨_, Chars.cutLast_singleton_append absent _⟩
  rw [ClassName.lastSegment, Text.cutLast, @String.toList_ofList n.text]
  rcases cut with ⟨whole, same⟩ | ⟨before, found⟩
  · rw [whole, same]
    rfl
  · rw [found]
    rfl

end QualifiedName

namespace Reference

variable (r : Reference)

theorem isQualified_of_mem : ∀ c ∈ r.text, isQualified c := by
  intro c mem
  rcases List.mem_append.1 mem with inRoot | inName
  · have root : ∀ d ∈ (if r.rooted then ['\\'] else []), isQualified d := by cases r.rooted <;> decide
    exact root c inRoot
  · exact r.name.isQualified_of_mem c inName

theorem plain : r.text ∉ leadWords := by
  rw [text]
  cases r.rooted with
  | true =>
    have rootless : ∀ word ∈ leadWords, word.head? ≠ some '\\' := by decide
    exact fun listed => rootless _ listed rfl
  | false => exact r.name.plain

theorem starting (more : List Char) : Starting (r.text ++ more) := by
  rw [text]
  cases r.rooted with
  | true => exact starting_cons (by decide) _
  | false => exact r.name.starting more

theorem skipChar_text (more : List Char) : skipChar '\\' (r.text ++ more) = r.name.text ++ more := by
  rw [text]
  cases r.rooted with
  | true => rfl
  | false =>
    obtain ⟨c, cs, written, start, _⟩ := r.name.starts
    have unrooted : c ≠ '\\' := by
      rintro rfl
      exact absurd start (by decide)
    simp [written, skipChar, unrooted]

/-- A reference is read with its backslash. -/
theorem rooted?_append {more : List Char} (ends : Ends more) :
    rooted? (r.text ++ more) = some (r.text, more) := by
  have read := r.name.qualified?_append ends
  rw [text]
  cases r.rooted with
  | true =>
    have passed : rooted? ('\\' :: (r.name.text ++ more)) =
        (qualified? (r.name.text ++ more)).map fun p => ('\\' :: p.1, p.2) := rfl
    rw [read] at passed
    exact passed
  | false =>
    obtain ⟨c, cs, written, start, _⟩ := r.name.starts
    have unrooted : rooted? (r.name.text ++ more) = qualified? (r.name.text ++ more) := by
      rw [written, List.cons_append, rooted?.eq_2]
      rintro ds eq
      obtain rfl := (List.cons.inj eq).1
      exact absurd start (by decide)
    exact unrooted.trans read

end Reference

/-! The namespace -/

structure NamespaceStatement where
  gap : Spacing
  name : QualifiedName
  blanks : Blanks
  /-- A brace closes the statement instead of a semicolon. -/
  braced : Bool

namespace NamespaceStatement

variable (n : NamespaceStatement)

def closing : Char := if n.braced then '\x7b' else ';'

/-- From the name on. -/
def tail (more : List Char) : List Char := n.gap.1 ++ (n.name.text ++ (n.blanks.1 ++ n.closing :: more))

def text : List Char := "namespace".toList ++ n.tail []

theorem closing_cases : isQualified n.closing = false ∧ ¬isSpace n.closing ∧
    (n.closing = ';' || n.closing = '\x7b') := by
  rw [closing]
  cases n.braced <;> decide

theorem text_append (more : List Char) : n.text ++ more = "namespace".toList ++ n.tail more := by
  have flat (a b c d : List Char) (e : Char) :
      (a ++ (b ++ (c ++ (d ++ [e])))) ++ more = a ++ (b ++ (c ++ (d ++ e :: more))) := by simp
  exact flat _ _ _ _ _

theorem firstWord_text (more : List Char) : firstWord (n.text ++ more) = "namespace".toList := by
  rw [text_append, firstWord_append (by decide), tail, firstWord_spacing, List.append_nil]

/-- The statement is read back with its name. -/
theorem namespace?_text (more : List Char) : namespace? (n.text ++ more) = some n.name.text := by
  obtain ⟨ends, noSpace, closes⟩ := n.closing_cases
  have named := n.name.qualified?_append (ends_blanks n.blanks (ends_cons ends more))
  have closed : Chars.afterOne? (fun c => c = ';' || c = '\x7b') (n.closing :: more) = some more :=
    if_pos closes
  rw [n.text_append, namespace?, word?_append, tail]
  simp only [Option.bind_eq_bind, Option.bind_some, spaces?_spacing n.gap (n.name.starting _), named,
    skipSpaces_blanks n.blanks (starting_cons noSpace more), closed]
  rfl

theorem stale_text (fresh : Bool) : freshAfter fresh n.text = false := by
  have stale (a b c d : List Char) : freshAfter fresh (a ++ (b ++ (c ++ (d ++ [n.closing])))) = false := by
    rw [freshAfter_append, freshAfter_append, freshAfter_append]
    exact freshAfter_concat _ _ n.closing_cases.2.1
  exact stale _ _ _ _

/-- After its word the statement is quiet. -/
theorem quiet_tail (rest : List Char) : AllHeads Quiet (n.tail []) rest := by
  obtain ⟨ends, noSpace, _⟩ := n.closing_cases
  have last := allHeads_mark ends noSpace rest
  have atClosing : Ends (n.blanks.1 ++ [n.closing]) := ends_blanks n.blanks (ends_cons ends [])
  rw [tail]
  refine AllHeads.spaced n.gap.2.2 ?_
  refine AllHeads.named n.name.isQualified_of_mem n.name.plain (atClosing.append (by simp) rest) ?_
  exact last.spaced n.blanks.2

end NamespaceStatement

/-! Imports -/

/-- No alias stands before the semicolon. -/
theorem useAlias?_semicolon (blanks : Blanks) (more : List Char) :
    useAlias? (blanks.1 ++ ';' :: more) = none := by
  rcases spaces?_blanks blanks (@starting_cons ';' (by decide) more) with none | passed
  · rw [useAlias?, none]
    rfl
  · rw [useAlias?, passed]
    rfl

/-- An import. `short` holds the alias, with the blanks before and after the word `as`. -/
structure UseStatement where
  gap : Spacing
  ref : Reference
  short : Option (Spacing × Spacing × PlainName)
  blanks : Blanks

namespace UseStatement

variable (u : UseStatement)

/-- From the alias on, if there is one. -/
def shortText (more : List Char) : List Char :=
  u.short.elim more fun (before, after, name) => before.1 ++ ("as".toList ++ (after.1 ++ (name.1 ++ more)))

/-- From the name on. -/
def tail (more : List Char) : List Char := u.gap.1 ++ (u.ref.text ++ u.shortText (u.blanks.1 ++ ';' :: more))

def text : List Char := "use".toList ++ u.tail []

/-- What the statement says. -/
def use : Use where
  name := u.ref.name.text
  alias? := u.short.map fun (_, _, name) => name.1

theorem shortText_append (text more : List Char) : u.shortText text ++ more = u.shortText (text ++ more) := by
  rw [shortText, shortText]
  cases u.short with
  | none => rfl
  | some entry =>
    have flat (a b c d : List Char) :
        (a ++ (b ++ (c ++ (d ++ text)))) ++ more = a ++ (b ++ (c ++ (d ++ (text ++ more)))) := by simp
    exact flat _ _ _ _

theorem tail_append (more : List Char) : u.tail [] ++ more = u.tail more := by
  rw [tail, List.append_assoc, List.append_assoc, shortText_append, List.append_assoc]
  rfl

theorem text_append (more : List Char) : u.text ++ more = "use".toList ++ u.tail more := by
  rw [← tail_append]
  exact List.append_assoc _ _ _

theorem firstWord_text (more : List Char) : firstWord (u.text ++ more) = "use".toList := by
  rw [text_append, firstWord_append (by decide), tail, firstWord_spacing, List.append_nil]

theorem ends_shortText {more : List Char} (h : Ends more) : Ends (u.shortText more) := by
  rw [shortText]
  cases u.short with
  | none => exact h
  | some entry => exact ends_spacing entry.1 _

theorem useAlias?_shortText (more : List Char) : useAlias? (u.shortText (u.blanks.1 ++ ';' :: more)) =
    u.short.map fun (_, _, name) => (name.1, u.blanks.1 ++ ';' :: more) := by
  rw [shortText]
  cases u.short with
  | none => exact useAlias?_semicolon u.blanks more
  | some entry =>
    obtain ⟨before, after, name⟩ := entry
    have ends : Ends (u.blanks.1 ++ ';' :: more) := ends_blanks u.blanks (ends_cons (by decide) more)
    have word : Starting ("as".toList ++ (after.1 ++ (name.1 ++ (u.blanks.1 ++ ';' :: more)))) :=
      starting_cons (by decide) _
    have named : identifier? (name.1 ++ (u.blanks.1 ++ ';' :: more)) =
        some (name.1, u.blanks.1 ++ ';' :: more) :=
      identifier?_eq_some_iff.2 ⟨rfl, name.2.1, ends.not_isWord⟩
    simp only [useAlias?, Option.elim_some, Option.bind_eq_bind, spaces?_spacing before word, Option.bind_some,
      word?_append, spaces?_spacing after (name.2.1.starting _), named, Option.map_some]

/-- The statement is read back with its name and its alias. -/
theorem use?_text (more : List Char) : use? (u.text ++ more) = some (u.use, more) := by
  have ends : Ends (u.blanks.1 ++ ';' :: more) := ends_blanks u.blanks (ends_cons (by decide) more)
  have blanks := spaces?_spacing u.gap (u.ref.starting (u.shortText (u.blanks.1 ++ ';' :: more)))
  have root : skipChar '\\' (u.ref.text ++ u.shortText (u.blanks.1 ++ ';' :: more)) =
      u.ref.name.text ++ u.shortText (u.blanks.1 ++ ';' :: more) := u.ref.skipChar_text _
  have named := u.ref.name.qualified?_append (u.ends_shortText ends)
  have closed : Chars.afterOne? (· = ';') (skipSpaces (u.blanks.1 ++ ';' :: more)) = some more := by
    rw [skipSpaces_blanks u.blanks (starting_cons (by decide) more)]
    rfl
  have read := u.useAlias?_shortText more
  rw [u.text_append, use?, word?_append, tail]
  simp only [Option.bind_eq_bind, Option.bind_some, blanks, root, named, read]
  cases short : u.short with
  | none =>
    simp only [shortText, use, short, Option.map_none, Option.elim_none, closed, Option.bind_some]
    rfl
  | some entry =>
    simp only [use, short, Option.map_some, closed, Option.bind_some]
    rfl

theorem stale_text (fresh : Bool) : freshAfter fresh u.text = false := by
  have stale (a b c : List Char) :
      freshAfter fresh (a ++ (b ++ (c ++ u.shortText (u.blanks.1 ++ [';'])))) = false := by
    rw [freshAfter_append, freshAfter_append, freshAfter_append, ← shortText_append]
    exact freshAfter_concat _ _ (by decide)
  exact stale _ _ _

/-- After its word the statement is quiet. -/
theorem quiet_tail (rest : List Char) : AllHeads Quiet (u.tail []) rest := by
  have ends : Ends (u.blanks.1 ++ [';']) := ends_blanks u.blanks (ends_cons (by decide) [])
  have last : AllHeads Quiet (u.blanks.1 ++ [';']) rest :=
    (allHeads_mark (by decide) (by decide) rest).spaced u.blanks.2
  rw [tail]
  refine AllHeads.spaced u.gap.2.2 (AllHeads.named u.ref.isQualified_of_mem u.ref.plain ?_ ?_)
  · rw [shortText_append]
    exact u.ends_shortText (ends.append (by simp) rest)
  · rw [shortText]
    cases u.short with
    | none => exact last
    | some entry =>
      obtain ⟨before, after, name⟩ := entry
      have atName := AllHeads.named name.2.1.isQualified name.2.2 (ends.append (by simp) rest) last
      have atAs : Ends (after.1 ++ (name.1 ++ (u.blanks.1 ++ [';'])) ++ rest) := by
        rw [List.append_assoc]
        exact ends_spacing after _
      exact (AllHeads.named (by decide) (by decide) atAs (atName.spaced after.2.2)).spaced before.2.2

end UseStatement

end ShopLint.Php
