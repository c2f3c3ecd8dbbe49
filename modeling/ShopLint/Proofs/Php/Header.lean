import ShopLint.Proofs.Php.Header.ClassStatement
import ShopLint.Proofs.Php.Header.Imports

/-!
Headers read back. A file that opens with a namespace, imports and a class, each on lines of its own, is read
with the names that are written, whatever else stands on the other lines.
-/

namespace ShopLint.Php

/-! How a header is written -/

/-- Text up to where a line starts anew; none of its lines begins with a lead word. `fresh` tells that it comes
where a line starts itself. -/
structure Filler (fresh : Bool) where
  text : List Char
  fresh_after : freshAfter fresh text = true
  quiet : ∀ head ∈ headsIn fresh text [], Quiet head

/-- A file with a header: what stands after each statement goes on to the next line. -/
structure WrittenHeader where
  opening : Filler true
  space : Option (NamespaceStatement × Filler false)
  uses : List (UseStatement × Filler false)
  decl : ClassStatement
  body : List Char
  body_quiet : ∀ head ∈ headsIn false body [],
    firstWord head ≠ "namespace".toList ∧ firstWord head ≠ "use".toList ∧ ¬StartsClass head

def spaceText (space : Option (NamespaceStatement × Filler false)) : List Char :=
  space.elim [] fun (n, filler) => n.text ++ filler.text

def usesText (uses : List (UseStatement × Filler false)) : List Char :=
  uses.flatMap fun (u, filler) => u.text ++ filler.text

namespace WrittenHeader

variable (h : WrittenHeader)

/-- What stands before the class. -/
def beforeClass : List Char := h.opening.text ++ (spaceText h.space ++ usesText h.uses)

def source : List Char := h.beforeClass ++ (h.decl.text ++ h.body)

/-- What stands before the name of the class. -/
def beforeName : List Char := h.beforeClass ++ h.decl.beforeName

/-- The declared namespace, empty if there is none. -/
def spaceName : String := h.space.elim "" fun (n, _) => String.ofList n.name.text

/-- The name of the class after that of the namespace. -/
def fullName : String :=
  h.space.elim (String.ofList h.decl.name.1) fun (n, _) =>
    String.ofList (n.name.text ++ '\\' :: h.decl.name.1)

/-- The class that is extended, as written, empty if there is none. -/
def parentName : String := h.decl.parent.elim "" fun (_, _, ref) => String.ofList ref.text

end WrittenHeader

/-- The short name of an import: its alias, else its last segment. -/
def UseStatement.key (u : UseStatement) : String :=
  u.short.elim (String.ofList u.ref.name.last) fun (_, _, name) => String.ofList name.1

/-! The heads of a file with a header -/

theorem usesText_cons (u : UseStatement) (f : Filler false) (others : List (UseStatement × Filler false)) :
    usesText ((u, f) :: others) = (u.text ++ f.text) ++ usesText others := List.flatMap_cons

/-- After a statement and what follows it a line starts anew. -/
theorem freshAfter_line {text : List Char} (stale : freshAfter true text = false) (f : Filler false) :
    freshAfter true (text ++ f.text) = true := by
  rw [freshAfter_append, stale, f.fresh_after]

theorem freshAfter_spaceText (space : Option (NamespaceStatement × Filler false)) :
    freshAfter true (spaceText space) = true := by
  cases space with
  | none => rfl
  | some entry => exact freshAfter_line (entry.1.stale_text true) entry.2

theorem freshAfter_usesText (uses : List (UseStatement × Filler false)) :
    freshAfter true (usesText uses) = true := by
  induction uses with
  | nil => rfl
  | cons entry others ih => rw [usesText_cons, freshAfter_append, freshAfter_line (entry.1.stale_text true), ih]

/-- How the statements before the class are read: `ofSpace` and `ofUse` tell what is read of them, and at quiet
heads nothing is. -/
structure ReadsAs {β : Type} (read : List Char → Option β) (ofSpace : NamespaceStatement → Option β)
    (ofUse : UseStatement → Option β) : Prop where
  quiet : ∀ head, Quiet head → read head = none
  space : ∀ n more, read (NamespaceStatement.text n ++ more) = ofSpace n
  use : ∀ u more, read (UseStatement.text u ++ more) = ofUse u

namespace ReadsAs

variable {β : Type} {read : List Char → Option β} {ofSpace : NamespaceStatement → Option β}
  {ofUse : UseStatement → Option β} (r : ReadsAs read ofSpace ofUse)

include r

theorem filterMap_filler {fresh : Bool} (f : Filler fresh) (rest : List Char) :
    (headsIn fresh f.text rest).filterMap read = [] := by
  rw [List.filterMap_eq_nil_iff, headsIn_eq_map]
  intro head mem
  obtain ⟨own, listed, rfl⟩ := List.mem_map.1 mem
  apply r.quiet
  rw [Quiet, firstWord_append_of_space (exists_space_of_mem_headsIn f.fresh_after listed)]
  exact f.quiet own listed

/-- A statement on lines of its own, and what follows up to the next line. -/
theorem filterMap_line {word tail rest : List Char} (f : Filler false) (nonempty : word ≠ [])
    (blankless : ∀ c ∈ word, ¬isSpace c) (quiet : AllHeads Quiet tail (f.text ++ rest))
    (stale : freshAfter true (word ++ tail) = false) :
    (headsIn true (word ++ tail ++ f.text) rest).filterMap read =
      (read (word ++ tail ++ (f.text ++ rest))).toList := by
  rw [headsIn_append, List.filterMap_append, filterMap_headsIn_statement r.quiet nonempty blankless quiet,
    stale, r.filterMap_filler, List.append_nil]

theorem filterMap_space (space : Option (NamespaceStatement × Filler false)) (rest : List Char) :
    (headsIn true (spaceText space) rest).filterMap read = (space.bind fun p => ofSpace p.1).toList := by
  cases space with
  | none => rfl
  | some entry =>
    obtain ⟨n, filler⟩ := entry
    have line := r.filterMap_line filler (by decide) (by decide) (n.quiet_tail (filler.text ++ rest))
      (n.stale_text true)
    exact line.trans (congrArg Option.toList (r.space n (filler.text ++ rest)))

theorem filterMap_uses (uses : List (UseStatement × Filler false)) (rest : List Char) :
    (headsIn true (usesText uses) rest).filterMap read = (uses.map Prod.fst).filterMap ofUse := by
  induction uses with
  | nil => rfl
  | cons entry others ih =>
    obtain ⟨u, filler⟩ := entry
    have line := r.filterMap_line filler (by decide) (by decide)
      (u.quiet_tail (filler.text ++ (usesText others ++ rest))) (u.stale_text true)
    have own : (headsIn true (u.text ++ filler.text) (usesText others ++ rest)).filterMap read =
        (ofUse u).toList := line.trans (congrArg Option.toList (r.use u _))
    rw [usesText_cons, headsIn_append, freshAfter_line (u.stale_text true), List.filterMap_append,
      own, ih, List.map_cons]
    cases found : ofUse u with
    | none => rw [List.filterMap_cons_none found, Option.toList_none, List.nil_append]
    | some value => rw [List.filterMap_cons_some found, Option.toList_some, List.singleton_append]

end ReadsAs

namespace WrittenHeader

variable (h : WrittenHeader) {β : Type} {read : List Char → Option β} {ofSpace : NamespaceStatement → Option β}
  {ofUse : UseStatement → Option β}

/-- What is read in a file: the statements before the class one after the other, then the class. -/
theorem filterMap_heads_source (r : ReadsAs read ofSpace ofUse)
    (body : ∀ head ∈ headsIn false h.body [], read head = none) :
    (heads h.source).filterMap read = (h.space.bind fun p => ofSpace p.1).toList ++
      ((h.uses.map Prod.fst).filterMap ofUse ++ (headsIn true h.decl.text h.body).filterMap read) := by
  have inBody : (headsIn false h.body []).filterMap read = [] := List.filterMap_eq_nil_iff.2 body
  have flat : h.source =
      h.opening.text ++ (spaceText h.space ++ (usesText h.uses ++ (h.decl.text ++ h.body))) := by
    simp only [source, beforeClass, List.append_assoc]
  rw [heads, flat, headsIn_append, headsIn_append, headsIn_append, headsIn_append, h.opening.fresh_after,
    freshAfter_spaceText, freshAfter_usesText, h.decl.stale_text, List.append_nil]
  simp only [List.filterMap_append, r.filterMap_filler, r.filterMap_space, r.filterMap_uses, inBody,
    List.append_nil, List.nil_append]

end WrittenHeader

/-! The readers -/

theorem NamespaceStatement.not_startsClass (n : NamespaceStatement) (more : List Char) :
    ¬StartsClass (n.text ++ more) := by
  intro starts
  have lead := starts.firstWord_mem
  rw [n.firstWord_text] at lead
  exact absurd lead (by decide)

theorem UseStatement.not_startsClass (u : UseStatement) (more : List Char) : ¬StartsClass (u.text ++ more) := by
  intro starts
  have lead := starts.firstWord_mem
  rw [u.firstWord_text] at lead
  exact absurd lead (by decide)

theorem readsAs_namespace? : ReadsAs (namespace?) (fun n => some n.name.text) fun _ => none where
  quiet _ quiet := quiet.unread.1
  space n more := n.namespace?_text more
  use u more := namespace?_eq_none (by rw [u.firstWord_text]; decide)

theorem readsAs_use? : ReadsAs (fun head => (use? head).map Prod.fst) (fun _ => none) fun u => some u.use where
  quiet _ quiet := by rw [quiet.unread.2.1, Option.map_none]
  space n more := by rw [use?_eq_none (by rw [n.firstWord_text]; decide), Option.map_none]
  use u more := by rw [u.use?_text, Option.map_some]

/-- Whatever is read only where a class starts is not read of the statements before. -/
theorem readsAs_of_not_startsClass {β : Type} {read : List Char → Option β}
    (unread : ∀ head, ¬StartsClass head → read head = none) : ReadsAs read (fun _ => none) fun _ => none where
  quiet head quiet := unread head quiet.not_startsClass
  space n more := unread _ (n.not_startsClass more)
  use u more := unread _ (u.not_startsClass more)

theorem implementing?_eq_none {text : List Char} (h : ¬StartsClass text) : implementing? text = none := by
  rw [implementing?, classHead?_eq_none h]
  rfl

theorem namespaceOf_eq (source : List Char) :
    namespaceOf source = ((heads source).filterMap (namespace?)).head?.elim "" String.ofList := by
  rw [← find?_atLineStart rfl, namespaceOf]
  cases Scan.find? (atLineStart (namespace?)) source <;> rfl

theorem classOf_eq (source : List Char) :
    classOf source = ((heads source).filterMap classHead?).head?.map fun head =>
      { name := String.ofList head.name
        parent := String.ofList (head.extends?.getD [])
        line := lineAfter (textBefore source head.fromName) } := by
  rw [← find?_atLineStart (classHead?_eq_none fun starts => absurd starts.firstWord_mem (by decide)), classOf,
    Option.map_map]
  rfl

theorem interfaceNames_eq (source : List Char) :
    interfaceNames source = ((heads source).filterMap implementing?).head?.elim [] fun clause =>
      Text.listItems (String.ofList clause) := by
  rw [← find?_atLineStart (implementing?_eq_none fun starts => absurd starts.firstWord_mem (by decide)),
    interfaceNames]
  cases Scan.find? (atLineStart implementing?) source <;> rfl

/-- What is read of a class is read at its first head. -/
theorem ClassStatement.head?_filterMap {β : Type} {read : List Char → Option β} {value : β} (c : ClassStatement)
    (rest : List Char) (own : read (c.text ++ rest) = some value) :
    ((headsIn true c.text rest).filterMap read).head? = some value := by
  have starting : Starting c.text := starting_modifiers c.modifiers (c.starting_fromClass [])
  cases written : c.text with
  | nil =>
    have stale := c.stale_text true
    rw [written] at stale
    cases stale
  | cons d ds =>
    rw [written] at starting own
    have stretch := headsIn_stretch (List.forall_mem_nil _) (starting d rfl) ds rest
    rw [List.nil_append] at stretch
    rw [stretch, List.filterMap_cons_some own, List.head?_cons]

namespace WrittenHeader

variable (h : WrittenHeader)

theorem namespaceOf_source : namespaceOf h.source = h.spaceName := by
  have inClass := ((h.decl.unread h.body).imp fun _ unread => unread.1).filterMap_eq_nil true
  have whole := h.filterMap_heads_source readsAs_namespace?
    fun head mem => namespace?_eq_none (h.body_quiet head mem).1
  rw [namespaceOf_eq, whole, inClass, spaceName]
  cases h.space <;> simp

theorem usesOf_source : usesOf h.source = h.uses.map fun p => p.1.use := by
  have inClass : AllHeads (fun head => (use? head).map Prod.fst = none) h.decl.text h.body :=
    (h.decl.unread h.body).imp fun _ unread => by rw [unread.2, Option.map_none]
  have whole := h.filterMap_heads_source readsAs_use? fun head mem => by
    rw [use?_eq_none (h.body_quiet head mem).2.1, Option.map_none]
  rw [usesOf_eq, whole, inClass.filterMap_eq_nil]
  simp

theorem source_eq : h.source = h.beforeName ++ (h.decl.head h.body).fromName := by
  have flat (a b c d : List Char) : a ++ (b ++ (c ++ d)) = (a ++ (b ++ c)) ++ d := by simp
  have inClass : h.decl.text ++ h.body = h.decl.beforeName ++ (h.decl.head h.body).fromName := by
    rw [h.decl.text_append]
    exact flat _ _ _ _
  rw [source, beforeName, inClass, List.append_assoc]

theorem textBefore_name : textBefore h.source (h.decl.head h.body).fromName = h.beforeName := by
  rw [source_eq, textBefore]
  simp

theorem classOf_source : classOf h.source = some
    { name := String.ofList h.decl.name.1
      parent := h.parentName
      line := lineAfter h.beforeName } := by
  have own : classHead? (h.decl.text ++ h.body) = some (h.decl.head h.body) := by
    rw [h.decl.text_append]
    exact h.decl.classHead?_text h.decl.modifiers h.body
  have whole := h.filterMap_heads_source (readsAs_of_not_startsClass fun _ => classHead?_eq_none)
    fun head mem => classHead?_eq_none (h.body_quiet head mem).2.2
  have found : ((heads h.source).filterMap classHead?).head? = some (h.decl.head h.body) := by
    rw [whole]
    simpa using h.decl.head?_filterMap h.body own
  rw [classOf_eq, found, Option.map_some, h.textBefore_name, parentName, ClassStatement.head]
  cases h.decl.parent <;> rfl

theorem interfaceNames_source :
    interfaceNames h.source = h.decl.ending.names.map fun l => String.ofList l.ref.text := by
  have whole := h.filterMap_heads_source (readsAs_of_not_startsClass fun _ => implementing?_eq_none)
    fun head mem => implementing?_eq_none (h.body_quiet head mem).2.2
  have own (modifiers : List ClassModifier) := h.decl.implementing?_text modifiers h.body
  have found : ((heads h.source).filterMap implementing?).head? =
      ((headsIn true h.decl.text h.body).filterMap implementing?).head? := by
    rw [whole]
    simp
  rw [interfaceNames_eq, found]
  cases ending : h.decl.ending with
  | plain blanks =>
    have silent : AllHeads (fun head => implementing? head = none) h.decl.text h.body := by
      refine h.decl.allHeads_text (fun _ quiet => implementing?_eq_none quiet.not_startsClass) ?_
      intro modifiers
      rw [own modifiers, ClassStatement.afterParent, ending]
      exact implementsClause?_plain blanks h.body
    rw [silent.filterMap_eq_nil]
    rfl
  | implementing gap after first others =>
    obtain ⟨clause, isClause, items⟩ := implementsClause?_implementing gap after first others h.body
    have read : implementing? (h.decl.text ++ h.body) = some clause := by
      rw [h.decl.text_append, own, ClassStatement.afterParent, ending]
      exact isClause
    rw [h.decl.head?_filterMap h.body read, Option.elim_some, items, ClassEnding.names]

theorem implementsOf_source (orders : Nat → Dict.Listing String) :
    implementsOf orders h.source = h.decl.ending.names.mapIdx fun n l =>
      ClassName.resolve (orders n) (importsOf h.source) h.spaceName (String.ofList l.ref.text) := by
  rw [implementsOf, interfaceNames_source, namespaceOf_source]
  refine List.ext_getElem? fun n => ?_
  simp only [List.getElem?_mapIdx, List.getElem?_map, Option.map_map, Function.comp_def]

/-- The imports are those of the last statement for each short name. -/
theorem get?_importsOf_source (key : String) : (importsOf h.source).get? key =
    ((h.uses.map Prod.fst).reverse.find? fun u => u.key = key).map fun u => String.ofList u.ref.name.text := by
  have keyed (u : UseStatement) : u.use.key = u.key := by
    rw [Use.key, UseStatement.use, UseStatement.key]
    cases u.short with
    | none => exact u.ref.name.lastSegment_text
    | some entry => rfl
  have entries : (usesOf h.source).map (fun u => (u.key, String.ofList u.name)) =
      (h.uses.map Prod.fst).map fun u => (u.key, String.ofList u.ref.name.text) := by
    rw [usesOf_source, List.map_map, List.map_map]
    exact List.map_congr_left fun p _ => congrArg (·, _) (keyed p.1)
  rw [importsOf, entries, Dict.get?_ofList_map]

theorem classNameOf_source : classNameOf h.source = h.fullName := by
  rw [classNameOf, classOf_source, namespaceOf_source, spaceName, fullName]
  cases h.space with
  | none => rfl
  | some entry =>
    obtain ⟨n, filler⟩ := entry
    have nonempty : String.ofList n.name.text ≠ "" := by
      obtain ⟨c, cs, written, _⟩ := n.name.starts
      rw [written]
      simp
    simp [ClassName.qualify, nonempty, String.append_assoc]

end WrittenHeader

/-- **Headers are read back.** Whatever blanks stand between the words, the namespace is the one declared, and
each short name stands for the class that the last import under it names. The class of the file has the name
and the parent that are written, on the line of its name, and its full name is that within the namespace. Its
interfaces are those that are listed, in order, each with what it means in the file when its imports are
gone through in some order. -/
theorem header_reads_back (h : WrittenHeader) :
    namespaceOf h.source = h.spaceName ∧
    (∀ key, (importsOf h.source).get? key =
      ((h.uses.map Prod.fst).reverse.find? fun u => u.key = key).map fun u => String.ofList u.ref.name.text) ∧
    classOf h.source = some
      { name := String.ofList h.decl.name.1
        parent := h.parentName
        line := lineAfter h.beforeName } ∧
    h.beforeName ++ h.decl.name.1 <+: h.source ∧
    classNameOf h.source = h.fullName ∧
    ∀ orders, implementsOf orders h.source = h.decl.ending.names.mapIdx fun n l =>
      ClassName.resolve (orders n) (importsOf h.source) h.spaceName (String.ofList l.ref.text) := by
  refine ⟨h.namespaceOf_source, h.get?_importsOf_source, h.classOf_source, ?_, h.classNameOf_source,
    h.implementsOf_source⟩
  rw [h.source_eq, ClassStatement.head, ← List.append_assoc]
  exact List.prefix_append _ _

/-- A file with an import that replaces another one, an alias, and a class head over several lines. -/
def cartHeader : WrittenHeader where
  opening := ⟨"<?php\n/** Classes of the cart. */\n  ".toList, by decide, by decide⟩
  space := some
    ({ gap := ⟨[' '], by decide⟩
       name := ⟨["Shop".toList], "Cart".toList, by decide, by decide⟩
       blanks := ⟨[], by decide⟩
       braced := false },
     ⟨"\n\n".toList, by decide, by decide⟩)
  uses :=
    [({ gap := ⟨[' '], by decide⟩
        ref := ⟨true, ⟨["Log".toList], "Writer".toList, by decide, by decide⟩⟩
        short := none
        blanks := ⟨[], by decide⟩ },
      ⟨"\n".toList, by decide, by decide⟩),
     ({ gap := ⟨" \t".toList, by decide⟩
        ref := ⟨false, ⟨["Disk".toList], "File".toList, by decide, by decide⟩⟩
        short := some (⟨[' '], by decide⟩, ⟨[' '], by decide⟩, ⟨"Writer".toList, by decide⟩)
        blanks := ⟨[' '], by decide⟩ },
      ⟨" // later\n\t".toList, by decide, by decide⟩)]
  decl :=
    { modifiers := [⟨"abstract", ⟨[' '], by decide⟩, by decide⟩]
      gap := ⟨"\n  ".toList, by decide⟩
      name := ⟨"Order".toList, by decide⟩
      parent := some (⟨[' '], by decide⟩, ⟨[' '], by decide⟩,
        ⟨true, ⟨["Base".toList], "Item".toList, by decide, by decide⟩⟩)
      ending := .implementing ⟨"\n  ".toList, by decide⟩ ⟨[' '], by decide⟩
        { before := ⟨[], by decide⟩
          ref := ⟨false, ⟨[], "Writer".toList, by decide, by decide⟩⟩
          after := ⟨[' '], by decide⟩ }
        [{ before := ⟨"\n    ".toList, by decide⟩
           ref := ⟨false, ⟨[], "Priced".toList, by decide, by decide⟩⟩
           after := ⟨[], by decide⟩ }] }
  body := "\n  private $total;\n\x7d\n".toList
  body_quiet := by
    have quiet : ∀ head ∈ headsIn false "\n  private $total;\n\x7d\n".toList [], Quiet head := by decide
    intro head mem
    refine ⟨?_, ?_, (quiet head mem).not_startsClass⟩
    · exact fun same => quiet head mem (same ▸ by decide)
    · exact fun same => quiet head mem (same ▸ by decide)

/-- The class is found on line 8, and its first interface is what the later import names. -/
theorem header_reads_back_cart :
    namespaceOf cartHeader.source = "Shop\\Cart" ∧
    (importsOf cartHeader.source).get? "Writer" = some "Disk\\File" ∧
    classOf cartHeader.source = some { name := "Order", parent := "\\Base\\Item", line := 8 } ∧
    classNameOf cartHeader.source = "Shop\\Cart\\Order" ∧
    implementsOf (fun _ => .sorted) cartHeader.source = ["Disk\\File", "Shop\\Cart\\Priced"] := by
  obtain ⟨space, imports, decl, _, full, interfaces⟩ := header_reads_back cartHeader
  exact ⟨space.trans (by decide +kernel), (imports "Writer").trans (by decide +kernel),
    decl.trans (by decide +kernel), full.trans (by decide +kernel),
    (interfaces _).trans (by decide +kernel)⟩

end ShopLint.Php
