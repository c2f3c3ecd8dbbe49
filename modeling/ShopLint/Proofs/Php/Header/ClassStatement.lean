import ShopLint.Proofs.Php.Header.Statement
import ShopLint.Proofs.Text.Search
import ShopLint.Proofs.Text.Trim

/-!
The head of a class as it is written, up to its brace: modifiers, the name, the class it extends and the
interfaces it implements, with any blanks between them. It is read back with its names.
-/

namespace ShopLint.Php

/-! How the head of a class is written -/

/-- A word before `class`, with the blanks after it. -/
structure ClassModifier where
  word : String
  after : Spacing
  known : word ∈ classModifiers

def ClassModifier.text (m : ClassModifier) : List Char := m.word.toList ++ m.after.1

/-- One of the names in a list. -/
structure ListedName where
  before : Blanks
  ref : Reference
  after : Blanks

def ListedName.text (l : ListedName) : List Char := l.before.1 ++ (l.ref.text ++ l.after.1)

/-- What stands before the brace: blanks, or an `implements` clause. -/
inductive ClassEnding
  | plain (blanks : Blanks)
  | implementing (gap after : Spacing) (first : ListedName) (others : List ListedName)

namespace ClassEnding

/-- The names that are listed. -/
def names : ClassEnding → List ListedName
  | plain _ => []
  | implementing _ _ first others => first :: others

def text : ClassEnding → List Char
  | plain blanks => blanks.1
  | implementing gap after first others =>
    gap.1 ++ ("implements".toList ++ (after.1 ++ [','].intercalate ((first :: others).map ListedName.text)))

end ClassEnding

/-- The head of a class. `parent` holds the class it extends, with the blanks before and after the word
`extends`. -/
structure ClassStatement where
  modifiers : List ClassModifier
  gap : Spacing
  name : PlainName
  parent : Option (Spacing × Spacing × Reference)
  ending : ClassEnding

namespace ClassStatement

variable (c : ClassStatement)

/-- After the parent. -/
def afterParent (more : List Char) : List Char := c.ending.text ++ '\x7b' :: more

/-- After the name. -/
def afterName (more : List Char) : List Char :=
  c.parent.elim (c.afterParent more) fun (before, after, ref) =>
    before.1 ++ ("extends".toList ++ (after.1 ++ (ref.text ++ c.afterParent more)))

/-- From the word `class` on. -/
def fromClass (more : List Char) : List Char := "class".toList ++ (c.gap.1 ++ (c.name.1 ++ c.afterName more))

/-- What stands before the name. -/
def beforeName : List Char := c.modifiers.flatMap ClassModifier.text ++ ("class".toList ++ c.gap.1)

def text : List Char := c.modifiers.flatMap ClassModifier.text ++ c.fromClass []

end ClassStatement

/-! Reading it back -/

/-- A modifier is read together with the blanks after it. -/
theorem classModifier?_text (m : ClassModifier) {more : List Char} (starting : Starting more) :
    classModifier? (m.text ++ more) = some more := by
  obtain ⟨word, after, known⟩ := m
  have passed := spaces?_spacing after starting
  have found : ["abstract", "final", "readonly"].findSome? (word? · (word.toList ++ (after.1 ++ more))) =
      some (after.1 ++ more) := by
    have own := word?_append word (after.1 ++ more)
    simp only [classModifiers, List.mem_cons, List.not_mem_nil, or_false] at known
    rcases known with rfl | rfl | rfl
    · rw [List.findSome?_cons, own]
    · have apart : word? "abstract" ("final".toList ++ (after.1 ++ more)) = none := rfl
      rw [List.findSome?_cons, apart, List.findSome?_cons, own]
    · have apart : word? "abstract" ("readonly".toList ++ (after.1 ++ more)) = none := rfl
      have apart' : word? "final" ("readonly".toList ++ (after.1 ++ more)) = none := rfl
      rw [List.findSome?_cons, apart, List.findSome?_cons, apart', List.findSome?_cons, own]
  rw [ClassModifier.text, List.append_assoc, classModifier?, found]
  exact passed

theorem starting_modifiers (modifiers : List ClassModifier) {more : List Char} (h : Starting more) :
    Starting (modifiers.flatMap ClassModifier.text ++ more) := by
  cases modifiers with
  | nil => exact h
  | cons m ms =>
    have spelled : ∀ word ∈ classModifiers, word.toList ≠ [] ∧ ∀ c ∈ word.toList, ¬isSpace c := by decide
    obtain ⟨nonempty, blankless⟩ := spelled m.word m.known
    obtain ⟨c, cs, written⟩ := List.exists_cons_of_ne_nil nonempty
    rw [List.flatMap_cons, ClassModifier.text, written]
    exact starting_cons (blankless c (written ▸ List.mem_cons_self)) _

theorem skipClassModifiers_append (modifiers : List ClassModifier) {more : List Char} (starting : Starting more)
    (h : classModifier? more = none) :
    skipClassModifiers (modifiers.flatMap ClassModifier.text ++ more) = more := by
  induction modifiers with
  | nil =>
    rw [List.flatMap_nil, List.nil_append, skipClassModifiers]
    split
    next found => rw [h] at found; cases found
    next => rfl
  | cons m ms ih =>
    have passed := classModifier?_text m (starting_modifiers ms starting)
    rw [List.flatMap_cons, List.append_assoc, skipClassModifiers]
    split
    next after found =>
      obtain rfl := Option.some.inj (passed.symm.trans found)
      exact ih
    next none => rw [passed] at none; cases none

/-- A word that is not there is not read. -/
theorem extends?_eq_none (blanks : Blanks) {d : Char} (noSpace : ¬isSpace d) (other : d ≠ 'e')
    (more : List Char) : Php.extends? (blanks.1 ++ d :: more) = none := by
  have absent : word? "extends" (d :: more) = none := by
    rw [Option.eq_none_iff_forall_ne_some]
    intro rest found
    exact other (List.cons.inj (Chars.after?_eq_some.1 found)).1
  rcases spaces?_blanks blanks (starting_cons noSpace more) with none | passed
  · rw [Php.extends?, none]
    rfl
  · rw [Php.extends?, passed, Option.bind_eq_bind, Option.bind_some, absent]
    rfl

namespace ClassEnding

variable (e : ClassEnding)

theorem ends (more : List Char) : Ends (e.text ++ '\x7b' :: more) := by
  cases e with
  | plain blanks => exact ends_blanks blanks (ends_cons (by decide) more)
  | implementing gap after first others =>
    rw [text, List.append_assoc]
    exact ends_spacing gap _

theorem extends?_text (more : List Char) : Php.extends? (e.text ++ '\x7b' :: more) = none := by
  cases e with
  | plain blanks => exact extends?_eq_none blanks (by decide) (by decide) more
  | implementing gap after first others =>
    rw [text, List.append_assoc]
    exact extends?_eq_none ⟨gap.1, gap.2.2⟩ (by decide) (by decide) _

end ClassEnding

namespace ClassStatement

variable (c : ClassStatement)

theorem ends_afterName (more : List Char) : Ends (c.afterName more) := by
  rw [afterName]
  cases c.parent with
  | none => exact c.ending.ends more
  | some entry => exact ends_spacing entry.1 _

/-- The parent is read as it is written. -/
theorem extends?_afterName (more : List Char) : Php.extends? (c.afterName more) =
    c.parent.map fun (_, _, ref) => (ref.text, c.afterParent more) := by
  rw [afterName]
  cases c.parent with
  | none => exact c.ending.extends?_text more
  | some entry =>
    obtain ⟨before, after, ref⟩ := entry
    have word : Starting ("extends".toList ++ (after.1 ++ (ref.text ++ c.afterParent more))) :=
      starting_cons (by decide) _
    have read := ref.rooted?_append (c.ending.ends more)
    simp only [Php.extends?, Option.elim_some, Option.bind_eq_bind, spaces?_spacing before word,
      Option.bind_some, word?_append, spaces?_spacing after (ref.starting _), Option.map_some]
    exact read

/-- What is read of the head, after any of its modifiers. -/
def head (more : List Char) : ClassHead where
  name := c.name.1
  extends? := c.parent.map fun (_, _, ref) => ref.text
  fromName := c.name.1 ++ c.afterName more
  rest := c.afterParent more

theorem starting_fromClass (more : List Char) : Starting (c.fromClass more) := starting_cons (by decide) _

theorem classHead?_text (modifiers : List ClassModifier) (more : List Char) :
    classHead? (modifiers.flatMap ClassModifier.text ++ c.fromClass more) = some (c.head more) := by
  have noModifier : classModifier? (c.fromClass more) = none := rfl
  have skipped := skipClassModifiers_append modifiers (c.starting_fromClass more) noModifier
  have named : identifier? (c.name.1 ++ c.afterName more) = some (c.name.1, c.afterName more) :=
    identifier?_eq_some_iff.2 ⟨rfl, c.name.2.1, (c.ends_afterName more).not_isWord⟩
  rw [classHead?, skipped, fromClass, word?_append]
  simp only [Option.bind_eq_bind, Option.bind_some, spaces?_spacing c.gap (c.name.2.1.starting _), named,
    c.extends?_afterName]
  rw [head]
  cases parent : c.parent with
  | none => simp [afterName, parent]
  | some entry => rfl

end ClassStatement

/-! No statement starts after the word `class` -/

theorem ListedName.quiet (l : ListedName) {more rest : List Char} (ends : Ends (more ++ rest))
    (h : AllHeads Quiet more rest) : AllHeads Quiet (l.text ++ more) rest := by
  have flat : l.text ++ more = l.before.1 ++ (l.ref.text ++ (l.after.1 ++ more)) := by simp [text]
  have atAfter : Ends (l.after.1 ++ more ++ rest) := by
    rw [List.append_assoc]
    exact ends_blanks l.after ends
  rw [flat]
  exact (AllHeads.named l.ref.isQualified_of_mem l.ref.plain atAfter (h.spaced l.after.2)).spaced l.before.2

/-- Further names come after commas, up to the brace. -/
theorem quiet_others (others : List ListedName) (rest : List Char) :
    AllHeads Quiet ((others.map ListedName.text).flatMap (',' :: ·) ++ ['\x7b']) rest ∧
      Ends ((others.map ListedName.text).flatMap (',' :: ·) ++ ['\x7b'] ++ rest) := by
  induction others with
  | nil => exact ⟨allHeads_mark (by decide) (by decide) rest, ends_cons (by decide) rest⟩
  | cons l ls ih =>
    refine ⟨?_, ends_cons (by decide) _⟩
    have flat : ((l :: ls).map ListedName.text).flatMap (',' :: ·) ++ ['\x7b'] =
        [','] ++ (l.text ++ ((ls.map ListedName.text).flatMap (',' :: ·) ++ ['\x7b'])) := by simp
    rw [flat]
    exact (allHeads_mark (by decide) (by decide) _).append (l.quiet ih.2 ih.1)

theorem ClassEnding.quiet (e : ClassEnding) (rest : List Char) : AllHeads Quiet (e.text ++ ['\x7b']) rest := by
  cases e with
  | plain blanks => exact (allHeads_mark (by decide) (by decide) rest).spaced blanks.2
  | implementing gap after first others =>
    obtain ⟨inOthers, ends⟩ := quiet_others others rest
    have list := (first.quiet ends inOthers).spaced after.2.2
    have flat (a b c d e : List Char) : a ++ (b ++ (c ++ (d ++ e))) ++ ['\x7b'] =
        a ++ (b ++ (c ++ (d ++ (e ++ ['\x7b'])))) := by simp
    have atWord : Ends (after.1 ++
        (first.text ++ ((others.map ListedName.text).flatMap (',' :: ·) ++ ['\x7b'])) ++ rest) := by
      rw [List.append_assoc]
      exact ends_spacing after _
    rw [text, List.map_cons, Chars.intercalate_cons, flat]
    exact (AllHeads.named (by decide) (by decide) atWord list).spaced gap.2.2

namespace ClassStatement

variable (c : ClassStatement)

theorem afterParent_append (more : List Char) : c.afterParent [] ++ more = c.afterParent more := by
  simp [afterParent]

theorem afterName_append (more : List Char) : c.afterName [] ++ more = c.afterName more := by
  rw [afterName, afterName]
  cases c.parent with
  | none => exact c.afterParent_append more
  | some entry =>
    have flat (a b c d e : List Char) : a ++ (b ++ (c ++ (d ++ e))) ++ more =
        a ++ (b ++ (c ++ (d ++ (e ++ more)))) := by simp
    have joined := flat entry.1.1 "extends".toList entry.2.1.1 entry.2.2.text (c.afterParent [])
    rw [c.afterParent_append more] at joined
    exact joined

theorem text_append (more : List Char) :
    c.text ++ more = c.modifiers.flatMap ClassModifier.text ++ c.fromClass more := by
  have flat (a b c d e : List Char) : a ++ (b ++ (c ++ (d ++ e))) ++ more =
      a ++ (b ++ (c ++ (d ++ (e ++ more)))) := by simp
  rw [fromClass, ← c.afterName_append]
  exact flat _ _ _ _ _

theorem quiet_afterName (rest : List Char) : AllHeads Quiet (c.afterName []) rest := by
  have last := c.ending.quiet rest
  rw [afterName]
  cases c.parent with
  | none => exact last
  | some entry =>
    obtain ⟨before, after, ref⟩ := entry
    have atParent : Ends (c.afterParent [] ++ rest) := by
      rw [afterParent_append]
      exact c.ending.ends rest
    have atWord : Ends (after.1 ++ (ref.text ++ c.afterParent []) ++ rest) := by
      rw [List.append_assoc]
      exact ends_spacing after _
    have parent := AllHeads.named ref.isQualified_of_mem ref.plain atParent last
    exact (AllHeads.named (by decide) (by decide) atWord (parent.spaced after.2.2)).spaced before.2.2

theorem quiet_name (rest : List Char) : AllHeads Quiet (c.gap.1 ++ (c.name.1 ++ c.afterName [])) rest := by
  have ends : Ends (c.afterName [] ++ rest) := by
    rw [afterName_append]
    exact c.ends_afterName rest
  exact (AllHeads.named c.name.2.1.isQualified c.name.2.2 ends (c.quiet_afterName rest)).spaced c.gap.2.2

theorem stale_text (fresh : Bool) : freshAfter fresh c.text = false := by
  have atBrace (fresh : Bool) : freshAfter fresh (c.afterParent []) = false := freshAfter_concat _ _ (by decide)
  rw [text, fromClass, freshAfter_append, freshAfter_append, freshAfter_append, freshAfter_append, afterName]
  cases c.parent with
  | none => exact atBrace _
  | some entry =>
    rw [Option.elim_some, freshAfter_append, freshAfter_append, freshAfter_append, freshAfter_append]
    exact atBrace _

/-- What holds of quiet heads and of the head of the class, after any of its modifiers, holds of all heads. -/
theorem allHeads_text {P : List Char → Prop} {rest : List Char} (quiet : ∀ head, Quiet head → P head)
    (own : ∀ modifiers : List ClassModifier, P (modifiers.flatMap ClassModifier.text ++ c.fromClass rest)) :
    AllHeads P c.text rest := by
  have atName :
      c.gap.1 ++ (c.name.1 ++ c.afterName []) ++ rest = c.gap.1 ++ (c.name.1 ++ c.afterName rest) := by
    rw [List.append_assoc, List.append_assoc, afterName_append]
  have fromClass_append : c.fromClass [] ++ rest = c.fromClass rest := by
    rw [fromClass, fromClass, ← atName]
    exact List.append_assoc _ _ _
  have spelled : ∀ word ∈ classModifiers, ∀ d ∈ word.toList, ¬isSpace d := by decide
  rw [text]
  induction c.modifiers with
  | nil =>
    have first : P ("class".toList ++ (c.gap.1 ++ (c.name.1 ++ c.afterName []) ++ rest)) := atName ▸ own []
    exact (allHeads_word (by decide) first).append ((c.quiet_name rest).imp quiet)
  | cons m ms ih =>
    have flat (a b c d : List Char) : (a ++ b ++ c) ++ d = a ++ (b ++ (c ++ d)) := by simp
    have first :
        P (m.word.toList ++ (m.after.1 ++ (ms.flatMap ClassModifier.text ++ c.fromClass []) ++ rest)) := by
      have whole := own (m :: ms)
      rw [List.flatMap_cons, ClassModifier.text, flat, ← fromClass_append] at whole
      rwa [List.append_assoc, List.append_assoc]
    rw [List.flatMap_cons, ClassModifier.text, flat]
    exact (allHeads_word (spelled m.word m.known) first).append (ih.spaced m.after.2.2)

/-- No other statement is read at a head of the class. -/
theorem unread (rest : List Char) :
    AllHeads (fun head => namespace? head = none ∧ use? head = none) c.text rest := by
  refine c.allHeads_text ?_ ?_
  · exact fun head quiet => ⟨quiet.unread.1, quiet.unread.2.1⟩
  · exact fun modifiers => (startsClass_of_classHead? (c.classHead?_text modifiers rest)).unread

theorem implementing?_text (modifiers : List ClassModifier) (more : List Char) :
    implementing? (modifiers.flatMap ClassModifier.text ++ c.fromClass more) =
      implementsClause? (c.afterParent more) := by
  rw [implementing?, c.classHead?_text]
  rfl

end ClassStatement

/-! The interfaces -/

/-- Without a clause no interfaces are read. -/
theorem implementsClause?_plain (blanks : Blanks) (more : List Char) :
    implementsClause? (blanks.1 ++ '\x7b' :: more) = none := by
  rcases spaces?_blanks blanks (@starting_cons '\x7b' (by decide) more) with none | passed
  · rw [implementsClause?_eq, none]
    rfl
  · rw [implementsClause?_eq, passed]
    rfl

namespace ListedName

variable (l : ListedName)

theorem trim_text : Text.trim (String.ofList l.text) = String.ofList l.ref.text := by
  have blank (blanks : Blanks) : ∀ c ∈ blanks.1, isBlank c := fun c mem => isBlank_of_isSpace (blanks.2 c mem)
  have named : ∀ c ∈ l.ref.text, isBlank c = false :=
    fun c mem => isBlank_eq_false_of_isQualified (l.ref.isQualified_of_mem c mem)
  have kept : Chars.trimWhile isBlank l.ref.text = l.ref.text := by
    apply Chars.trimWhile_eq_self
    · exact fun c first => named c (List.mem_of_head? first)
    · exact fun c last => named c (List.mem_of_getLast? last)
  rw [Text.trim, String.toList_ofList, text, Chars.trimWhile_append_left (blank l.before),
    Chars.trimWhile_append_right (blank l.after), kept]

theorem ref_ne_nil : l.ref.text ≠ [] := by
  obtain ⟨c, cs, written, _⟩ := l.ref.name.starts
  rw [Reference.text, written]
  simp

/-- Neither a comma nor a brace stands in a name. -/
theorem not_mem_text {d : Char} (h : d ∈ [',', '\x7b']) : d ∉ l.text := by
  have apart : ∀ d ∈ [',', '\x7b'], ¬isSpace d ∧ ¬isQualified d := by decide
  obtain ⟨noSpace, noName⟩ := apart d h
  rw [text, List.mem_append, List.mem_append]
  rintro (inBefore | inName | inAfter)
  · exact noSpace (l.before.2 d inBefore)
  · exact noName (l.ref.isQualified_of_mem d inName)
  · exact noSpace (l.after.2 d inAfter)

end ListedName

/-- The items of a list are its names. -/
theorem listItems_names (first : ListedName) (others : List ListedName) :
    Text.listItems (String.ofList ([','].intercalate ((first :: others).map ListedName.text))) =
      (first :: others).map fun l => String.ofList l.ref.text := by
  have commaless : ∀ piece ∈ (first :: others).map ListedName.text, ',' ∉ piece := by
    intro piece mem
    obtain ⟨l, _, rfl⟩ := List.mem_map.1 mem
    exact l.not_mem_text (by decide)
  have nonempty : (first :: others).map ListedName.text ≠ [] := List.cons_ne_nil _ _
  have trimmed : ((first :: others).map ListedName.text).map (Text.trim ∘ String.ofList) =
      (first :: others).map fun l => String.ofList l.ref.text := by
    rw [List.map_map]
    exact List.map_congr_left fun l _ => l.trim_text
  rw [Text.listItems, Text.splitOn, String.toList_ofList, Chars.splitOn_intercalate commaless, if_neg nonempty,
    List.map_map, trimmed, List.filter_eq_self]
  intro item mem
  obtain ⟨l, _, rfl⟩ := List.mem_map.1 mem
  simpa using l.ref_ne_nil

/-- A clause is read, with the names it lists. -/
theorem implementsClause?_implementing (gap after : Spacing) (first : ListedName) (others : List ListedName)
    (more : List Char) : ∃ read,
      implementsClause? ((ClassEnding.implementing gap after first others).text ++ '\x7b' :: more) = some read ∧
      Text.listItems (String.ofList read) = (first :: others).map fun l => String.ofList l.ref.text := by
  have braceless : ∀ c ∈ after.1 ++ [','].intercalate ((first :: others).map ListedName.text),
      decide (c ≠ '\x7b') := by
    intro c mem
    rw [decide_eq_true_eq]
    rintro rfl
    rcases List.mem_append.1 mem with inAfter | inList
    · exact absurd (after.2.2 _ inAfter) (by decide)
    · rw [List.map_cons, Chars.intercalate_cons, List.mem_append, List.mem_flatMap] at inList
      rcases inList with inFirst | ⟨piece, listed, inOther⟩
      · exact first.not_mem_text (by decide) inFirst
      · obtain ⟨l, _, rfl⟩ := List.mem_map.1 listed
        rcases List.mem_cons.1 inOther with comma | inName
        · exact absurd comma (by decide)
        · exact l.not_mem_text (by decide) inName
  have clause : IsClause (after.1 ++ [','].intercalate ((first :: others).map ListedName.text)) := by
    obtain ⟨b, bs, written⟩ := List.exists_cons_of_ne_nil after.2.1
    refine ⟨b, bs ++ [','].intercalate ((first :: others).map ListedName.text),
      by rw [written, List.cons_append], after.2.2 b (written ▸ List.mem_cons_self), ?_⟩
    rw [List.map_cons, Chars.intercalate_cons, ListedName.text]
    simp [first.ref_ne_nil]
  have isClause : HasClause ((ClassEnding.implementing gap after first others).text ++ '\x7b' :: more)
      (after.1 ++ [','].intercalate ((first :: others).map ListedName.text)) := by
    refine ⟨gap.1, after.1 ++ [','].intercalate ((first :: others).map ListedName.text) ++ '\x7b' :: more,
      gap.2.1, gap.2.2, ?_, ?_, clause⟩
    · have flat (a b c d : List Char) : a ++ (b ++ (c ++ d)) ++ '\x7b' :: more =
          a ++ (b ++ (c ++ d ++ '\x7b' :: more)) := by simp
      exact flat _ _ _ _
    · exact (Chars.takeWhile_until braceless (by decide) more).symm
  obtain ⟨read, isRead, items⟩ := isClause.read
  refine ⟨read, isRead, items.trans ?_⟩
  rw [Text.listItems_append_blanks after.2.2, listItems_names]

end ShopLint.Php
