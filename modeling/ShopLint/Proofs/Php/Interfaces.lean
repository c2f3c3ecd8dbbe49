import ShopLint.Proofs.Php.ClassName
import ShopLint.Proofs.Php.Lexeme

/-!
Whose interfaces a file names. The first class of a file and the first class with an `implements`
clause are looked for separately. They are the same class just if the first one has a clause; otherwise
the interfaces are those of a later class of the file.
-/

namespace ShopLint

/-- Blanks at the start of a list do not change its items. -/
theorem Text.listItems_append_blanks {blanks : List Char} (h : ∀ c ∈ blanks, isSpace c)
    (rest : List Char) :
    listItems (String.ofList (blanks ++ rest)) = listItems (String.ofList rest) := by
  induction blanks with
  | nil => rfl
  | cons c cs ih =>
    obtain ⟨space, others⟩ := List.forall_mem_cons.1 h
    rw [← ih others, List.cons_append]
    generalize cs ++ rest = text
    have noComma : c ≠ ',' := by
      rintro rfl
      exact absurd space (by decide)
    obtain ⟨piece, pieces, split⟩ := List.exists_cons_of_ne_nil (Chars.splitOn_ne_nil ',' text)
    have trimmed : trim (String.ofList (c :: piece)) = trim (String.ofList piece) := by
      simp only [trim, Chars.trimWhile, String.toList_ofList]
      rw [List.dropWhile_cons_of_pos (isBlank_of_isSpace space)]
    simp only [listItems, splitOn, String.toList_ofList, Chars.splitOn, if_neg noComma, split,
      List.map_cons, trimmed]

namespace Php

/-! Clauses -/

/-- The text up to the brace. -/
def upToBrace (text : List Char) : List Char := text.takeWhile (· ≠ '\x7b')

/-- The text of a clause: it starts with a blank and goes on. -/
def IsClause (clause : List Char) : Prop := ∃ c cs, clause = c :: cs ∧ isSpace c ∧ cs ≠ []

/-- After a class head comes an `implements` clause with the given text. -/
def HasClause (rest clause : List Char) : Prop :=
  ∃ blanks after, blanks ≠ [] ∧ (∀ c ∈ blanks, isSpace c) ∧
    rest = blanks ++ ("implements".toList ++ after) ∧ clause = upToBrace after ∧ IsClause clause

/-- The clause read from what follows its word. -/
def clauseAfter? (after : List Char) : Option (List Char) :=
  match after.takeWhile isSpace, after.dropWhile isSpace with
  | [], _ => none
  | blanks, [] => if blanks.length < 2 then none else some [' ']
  | blanks, c :: cs =>
    if c = '\x7b' then (if blanks.length < 2 then none else some [' '])
    else some ((c :: cs).takeWhile (· ≠ '\x7b'))

theorem implementsClause?_eq (text : List Char) :
    implementsClause? text = ((spaces? text).bind (word? "implements")).bind clauseAfter? := by
  cases blanks : spaces? text with
  | none => simp only [implementsClause?, blanks]; rfl
  | some after =>
    simp only [implementsClause?, blanks, Option.bind_eq_bind, Option.bind_some]
    rfl

/-- Up to the brace come the blanks, and then what follows them up to the brace. -/
theorem upToBrace_eq (text : List Char) :
    upToBrace text = text.takeWhile isSpace ++ upToBrace (text.dropWhile isSpace) := by
  have spaces : ∀ c ∈ text.takeWhile isSpace, decide (c ≠ '\x7b') := by
    intro c mem
    have space := List.mem_takeWhile_imp mem
    simp only [decide_eq_true_eq]
    rintro rfl
    exact absurd space (by decide)
  calc upToBrace text = upToBrace (text.takeWhile isSpace ++ text.dropWhile isSpace) := by
        rw [List.takeWhile_append_dropWhile]
    _ = _ := List.takeWhile_append_of_pos spaces

theorem clauseAfter?_eq (after : List Char) :
    clauseAfter? after =
      if after.takeWhile isSpace = [] then none
      else if upToBrace (after.dropWhile isSpace) ≠ [] then some (upToBrace (after.dropWhile isSpace))
      else if (after.takeWhile isSpace).length < 2 then none else some [' '] := by
  cases blanks : after.takeWhile isSpace with
  | nil => simp [clauseAfter?, blanks]
  | cons b bs =>
    cases tail : after.dropWhile isSpace with
    | nil => simp [clauseAfter?, blanks, tail, upToBrace]
    | cons c cs => by_cases brace : c = '\x7b' <;> simp [clauseAfter?, blanks, tail, upToBrace, brace]

/-- The text up to the brace makes a clause if there is a blank and something after it. -/
theorem isClause_upToBrace (after : List Char) :
    IsClause (upToBrace after) ↔ after.takeWhile isSpace ≠ [] ∧
      (upToBrace (after.dropWhile isSpace) ≠ [] ∨ 2 ≤ (after.takeWhile isSpace).length) := by
  rw [upToBrace_eq, IsClause]
  cases blanks : after.takeWhile isSpace with
  | nil =>
    simp only [List.nil_append, ne_eq, not_true_eq_false, false_and, iff_false]
    rintro ⟨c, cs, eq, space, _⟩
    -- without a blank at its start the text starts with something else
    have first : (after.dropWhile isSpace).head? = some c := by
      cases tail : after.dropWhile isSpace with
      | nil => simp [tail, upToBrace] at eq
      | cons d ds =>
        rw [tail, upToBrace, List.takeWhile_cons] at eq
        split at eq
        · exact congrArg some (List.cons.inj eq).1
        · simp at eq
    have stops := List.head?_dropWhile_not isSpace after
    rw [first] at stops
    simp [space] at stops
  | cons c cs =>
    have space : isSpace c := by
      have mem : c ∈ after.takeWhile isSpace := blanks ▸ List.mem_cons_self
      exact List.mem_takeWhile_imp mem
    have more : cs ++ upToBrace (after.dropWhile isSpace) ≠ [] ↔
        upToBrace (after.dropWhile isSpace) ≠ [] ∨ 2 ≤ (c :: cs).length := by
      cases cs <;> simp
    simp only [ne_eq, reduceCtorEq, not_false_eq_true, true_and]
    rw [← more]
    constructor
    · rintro ⟨d, ds, eq, _, nonempty⟩
      obtain ⟨rfl, rfl⟩ := List.cons.inj eq
      exact nonempty
    · exact fun nonempty => ⟨c, _, rfl, space, nonempty⟩

/-- A clause is read whenever the text up to the brace makes one, and has the items of that text. -/
theorem clauseAfter?_cases (after : List Char) :
    (∃ clause, clauseAfter? after = some clause ∧ IsClause (upToBrace after) ∧
      Text.listItems (String.ofList clause) = Text.listItems (String.ofList (upToBrace after))) ∨
    clauseAfter? after = none ∧ ¬IsClause (upToBrace after) := by
  have spaces : ∀ c ∈ after.takeWhile isSpace, isSpace c := fun c mem => List.mem_takeWhile_imp mem
  rw [isClause_upToBrace, upToBrace_eq after, Text.listItems_append_blanks spaces, clauseAfter?_eq]
  by_cases blanks : after.takeWhile isSpace = []
  · exact .inr ⟨if_pos blanks, fun h => h.1 blanks⟩
  rw [if_neg blanks]
  by_cases more : upToBrace (after.dropWhile isSpace) = []
  · rw [if_neg (not_not_intro more), more]
    by_cases short : (after.takeWhile isSpace).length < 2
    · refine .inr ⟨if_pos short, fun h => ?_⟩
      rcases h.2 with nonempty | long
      · exact nonempty rfl
      · omega
    · exact .inl ⟨[' '], if_neg short, ⟨blanks, .inr (Nat.le_of_not_lt short)⟩, by decide⟩
  · exact .inl ⟨_, if_pos more, ⟨blanks, .inl more⟩, rfl⟩

/-- A clause that is there is read, with the items of its text. -/
theorem HasClause.read {rest clause : List Char} (h : HasClause rest clause) :
    ∃ read, implementsClause? rest = some read ∧
      Text.listItems (String.ofList read) = Text.listItems (String.ofList clause) := by
  obtain ⟨blanks, after, nonempty, spaces, rfl, rfl, isClause⟩ := h
  have passed : spaces? (blanks ++ ("implements".toList ++ after)) =
      some ("implements".toList ++ after) := by
    refine spaces?_eq_some_iff.2 ⟨blanks, nonempty, spaces, rfl, fun c first => ?_⟩
    obtain rfl : 'i' = c := Option.some.inj first
    decide
  have word : word? "implements" ("implements".toList ++ after) = some after :=
    Chars.after?_eq_some.2 rfl
  rw [implementsClause?_eq, passed, Option.bind_some, word, Option.bind_some]
  rcases clauseAfter?_cases after with ⟨read, found, _, items⟩ | ⟨_, none⟩
  · exact ⟨read, found, items⟩
  · exact absurd isClause none

/-- A clause that is read is there. -/
theorem hasClause_of_read {rest read : List Char} (h : implementsClause? rest = some read) :
    ∃ clause, HasClause rest clause := by
  rw [implementsClause?_eq, Option.bind_eq_some_iff] at h
  obtain ⟨after, found, body⟩ := h
  obtain ⟨word, passed, isWord⟩ := Option.bind_eq_some_iff.1 found
  obtain ⟨blanks, nonempty, spaces, rfl, _⟩ := spaces?_eq_some_iff.1 passed
  rcases clauseAfter?_cases after with ⟨_, _, isClause, _⟩ | ⟨none, _⟩
  · exact ⟨_, blanks, after, nonempty, spaces, by rw [Chars.after?_eq_some.1 isWord], rfl, isClause⟩
  · rw [none] at body
    cases body

/-! Class heads of a file -/

/-- A class head stands in the source, at the start of a line, after `before`. -/
def HeadAt (source before : List Char) (head : ClassHead) : Prop :=
  Scan.ReadsAt (atLineStart classHead?) none source before head

/-- A class head followed by an `implements` clause. -/
def ClassHead.Implements (head : ClassHead) : Prop := ∃ clause, HasClause head.rest clause

/-- The first of the class heads with a property. -/
structure IsFirst (source : List Char) (P : ClassHead → Prop) (before : List Char) (head : ClassHead) :
    Prop where
  stands : HeadAt source before head
  holds : P head
  leftmost : ∀ earlier other, HeadAt source earlier other → P other → before.length ≤ earlier.length

/-- What is told of a class by its head. -/
def ClassHead.decl (head : ClassHead) (source : List Char) : ClassDecl where
  name := String.ofList head.name
  parent := String.ofList (head.extends?.getD [])
  line := lineAfter (textBefore source head.fromName)

/-- The class of a file is the one whose head is first. -/
theorem classOf_eq_some {source : List Char} {decl : ClassDecl} (h : classOf source = some decl) :
    ∃ before head, IsFirst source (fun _ => True) before head ∧ decl = head.decl source := by
  obtain ⟨⟨before, head⟩, found, rfl⟩ := Option.map_eq_some_iff.1 h
  obtain ⟨stands, leftmost⟩ := Scan.find?_eq_some_iff.1 found
  exact ⟨before, head, ⟨stands, trivial, fun earlier other stands' _ => leftmost earlier other stands'⟩, rfl⟩

theorem readsAt_implementing {source before read : List Char} :
    Scan.ReadsAt (atLineStart implementing?) none source before read ↔
      ∃ head, HeadAt source before head ∧ implementsClause? head.rest = some read := by
  simp only [HeadAt, Scan.ReadsAt, atLineStart, implementing?]
  constructor
  · rintro ⟨rest, split, found⟩
    split at found
    next start =>
      obtain ⟨head, isHead, clause⟩ := Option.bind_eq_some_iff.1 found
      exact ⟨head, ⟨rest, split, by rw [if_pos start, isHead]⟩, clause⟩
    next => cases found
  · rintro ⟨head, ⟨rest, split, found⟩, clause⟩
    refine ⟨rest, split, ?_⟩
    split at found
    next start =>
      rw [if_pos start, found]
      exact clause
    next => cases found

/-- The interfaces that the text of a clause names: its items, resolved in the file, each with the
imports in an order of its own. -/
def interfacesIn (orders : Nat → Dict.Listing String) (source clause : List Char) : List String :=
  (Text.listItems (String.ofList clause)).mapIdx fun n =>
    ClassName.resolve (orders n) (importsOf source) (namespaceOf source)

/-- The interfaces of a file are those of its first class head with a clause, if there is one. -/
theorem implementsOf_cases (orders : Nat → Dict.Listing String) (source : List Char) :
    (implementsOf orders source = [] ∧ ∀ before head, HeadAt source before head → ¬head.Implements) ∨
    ∃ before head clause, IsFirst source ClassHead.Implements before head ∧
      HasClause head.rest clause ∧ implementsOf orders source = interfacesIn orders source clause := by
  cases found : Scan.find? (atLineStart implementing?) source with
  | none =>
    have none : implementsOf orders source = [] := by
      simp only [implementsOf, interfaceNames, found, List.mapIdx_nil]
    refine .inl ⟨none, fun before head stands implementing => ?_⟩
    obtain ⟨clause, isClause⟩ := implementing
    obtain ⟨read, isRead, _⟩ := isClause.read
    exact Scan.first_eq_none_iff.1 found before read (readsAt_implementing.2 ⟨head, stands, isRead⟩)
  | some p =>
    obtain ⟨before, read⟩ := p
    obtain ⟨reads, leftmost⟩ := Scan.find?_eq_some_iff.1 found
    obtain ⟨head, stands, isRead⟩ := readsAt_implementing.1 reads
    obtain ⟨clause, isClause⟩ := hasClause_of_read isRead
    refine .inr ⟨before, head, clause, ⟨stands, ⟨clause, isClause⟩, ?_⟩, isClause, ?_⟩
    · rintro earlier other stands' ⟨clause', isClause'⟩
      obtain ⟨read', isRead', _⟩ := isClause'.read
      exact leftmost earlier read' (readsAt_implementing.2 ⟨other, stands', isRead'⟩)
    · obtain ⟨read', isRead', items⟩ := isClause.read
      cases isRead.symm.trans isRead'
      simp only [implementsOf, interfaceNames, found, interfacesIn, ← items]
      rfl

/-- There is one first class head with a property. -/
theorem IsFirst.unique {source before other : List Char} {P : ClassHead → Prop} {head head' : ClassHead}
    (h : IsFirst source P before head) (h' : IsFirst source P other head') :
    before = other ∧ head = head' :=
  h.stands.unique h'.stands (Nat.le_antisymm (h.leftmost other head' h'.stands h'.holds)
    (h'.leftmost before head h.stands h.holds))

/-- After one class head comes one clause, as far as its items go. -/
theorem HasClause.interfacesIn_eq {orders : Nat → Dict.Listing String}
    {source rest clause other : List Char} (h : HasClause rest clause) (h' : HasClause rest other) :
    interfacesIn orders source clause = interfacesIn orders source other := by
  obtain ⟨read, isRead, items⟩ := h.read
  obtain ⟨read', isRead', items'⟩ := h'.read
  cases isRead.symm.trans isRead'
  rw [interfacesIn, interfacesIn, ← items, ← items']

/-- **Whose interfaces a file names.** If the class of a file, the one whose head is first, has an
`implements` clause, the interfaces are those of that clause. If it has none, they are those of the
first class after it that has one; there are none if no class has one. -/
theorem implementsOf_of_classOf (orders : Nat → Dict.Listing String) (source : List Char)
    (decl : ClassDecl) (h : classOf source = some decl) :
    ∃ before head, IsFirst source (fun _ => True) before head ∧ decl = head.decl source ∧
      (∀ clause, HasClause head.rest clause → implementsOf orders source = interfacesIn orders source clause) ∧
      (¬head.Implements →
        (implementsOf orders source = [] ∧ ∀ later other, HeadAt source later other → ¬other.Implements) ∨
        ∃ later other clause, IsFirst source ClassHead.Implements later other ∧
          before.length < later.length ∧ HasClause other.rest clause ∧
          implementsOf orders source = interfacesIn orders source clause) := by
  obtain ⟨before, head, first, eq⟩ := classOf_eq_some h
  refine ⟨before, head, first, eq, fun clause isClause => ?_, fun plain => ?_⟩
  · have firstOfBoth : IsFirst source ClassHead.Implements before head :=
      ⟨first.stands, ⟨clause, isClause⟩, fun earlier other stands _ =>
        first.leftmost earlier other stands trivial⟩
    rcases implementsOf_cases orders source with ⟨_, none⟩ | ⟨later, other, clause', isFirst, isClause', names⟩
    · exact absurd ⟨clause, isClause⟩ (none before head first.stands)
    · obtain ⟨_, rfl⟩ := firstOfBoth.unique isFirst
      rw [names, isClause'.interfacesIn_eq isClause]
  · refine (implementsOf_cases orders source).imp_right ?_
    rintro ⟨later, other, clause, isFirst, isClause, names⟩
    refine ⟨later, other, clause, isFirst, ?_, isClause, names⟩
    have bound := first.leftmost later other isFirst.stands trivial
    refine Nat.lt_of_le_of_ne bound fun same => ?_
    obtain ⟨_, rfl⟩ := first.stands.unique isFirst.stands same
    exact plain isFirst.holds

/-- A class without a clause, and after it one with a clause. -/
def twoClasses : List Char :=
  "<?php\nclass Plain \x7b\x7d\nclass Named implements \\Shop\\Api\\Thing \x7b\x7d\n".toList

/-- The class of the file has no clause, and yet the file names an interface: that of the other. -/
theorem implementsOf_of_classOf_twoClasses :
    classOf twoClasses = some ⟨"Plain", "", 2⟩ ∧ implementsOf (fun _ => .sorted) twoClasses = ["Shop\\Api\\Thing"] ∧
    ∃ before head, IsFirst twoClasses (fun _ => True) before head ∧
      head.decl twoClasses = ⟨"Plain", "", 2⟩ ∧ ¬head.Implements ∧
      ∃ later other clause, HeadAt twoClasses later other ∧ before.length < later.length ∧
        HasClause other.rest clause ∧ interfacesIn (fun _ => .sorted) twoClasses clause = ["Shop\\Api\\Thing"] := by
  have isClass : classOf twoClasses = some ⟨"Plain", "", 2⟩ := by decide +kernel
  have names : implementsOf (fun _ => .sorted) twoClasses = ["Shop\\Api\\Thing"] := by decide +kernel
  have unread : (Scan.find? (atLineStart classHead?) twoClasses).bind
      (fun p => implementsClause? p.2.rest) = none := by decide +kernel
  obtain ⟨before, head, first, eq, _, otherwise⟩ := implementsOf_of_classOf (fun _ => .sorted) twoClasses _ isClass
  have plain : ¬head.Implements := by
    rintro ⟨clause, isClause⟩
    have found : Scan.find? (atLineStart classHead?) twoClasses = some (before, head) :=
      Scan.find?_eq_some_iff.2 ⟨first.stands, fun earlier other stands =>
        first.leftmost earlier other stands trivial⟩
    obtain ⟨read, isRead, _⟩ := isClause.read
    rw [found, Option.bind_some, isRead] at unread
    cases unread
  refine ⟨isClass, names, before, head, first, eq.symm, plain, ?_⟩
  rcases otherwise plain with ⟨none, _⟩ | ⟨later, other, clause, isFirst, after, isClause, these⟩
  · rw [names] at none
    cases none
  · exact ⟨later, other, clause, isFirst.stands, after, isClause, these.symm.trans names⟩

end Php

end ShopLint
