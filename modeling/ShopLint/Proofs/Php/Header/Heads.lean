import ShopLint.Proofs.Php.ClassName
import ShopLint.Proofs.Php.Lexeme

/-!
The heads of a text: what stands from the first character of a line that is not blank to the end of the
text. Whatever is read at the start of a line is read at a head, so a search comes down to the list of
heads, which can be gone through piece by piece.
-/

namespace ShopLint.Php

/-- The heads that start within `piece`, which `rest` follows; `fresh` tells that there are only blanks on
the line so far. -/
def headsIn (fresh : Bool) : List Char → List Char → List (List Char)
  | [], _ => []
  | c :: cs, rest =>
    if isSpace c then headsIn (fresh || c = '\n') cs rest
    else if fresh then (c :: cs ++ rest) :: headsIn false cs rest
    else headsIn false cs rest

/-- There are only blanks on the line at whose end `piece` leaves off. -/
def freshAfter (fresh : Bool) : List Char → Bool
  | [] => fresh
  | c :: cs => freshAfter (isSpace c && (fresh || c = '\n')) cs

def heads (text : List Char) : List (List Char) := headsIn true text []

theorem headsIn_append (fresh : Bool) (piece more rest : List Char) :
    headsIn fresh (piece ++ more) rest =
      headsIn fresh piece (more ++ rest) ++ headsIn (freshAfter fresh piece) more rest := by
  induction piece generalizing fresh with
  | nil => rfl
  | cons c cs ih =>
    rw [List.cons_append, headsIn, headsIn, freshAfter]
    by_cases space : isSpace c
    · rw [if_pos space, if_pos space, ih]
      simp [space]
    · rw [if_neg space, if_neg space]
      cases fresh with
      | true => simp [ih, space]
      | false => simp [ih, space]

/-! Blanks and words -/

theorem headsIn_blanks {blanks : List Char} (h : ∀ c ∈ blanks, isSpace c) (fresh : Bool) (rest : List Char) :
    headsIn fresh blanks rest = [] := by
  induction blanks generalizing fresh with
  | nil => rfl
  | cons c cs ih =>
    obtain ⟨space, others⟩ := List.forall_mem_cons.1 h
    rw [headsIn, if_pos space, ih others]

theorem freshAfter_blanks {blanks : List Char} (h : ∀ c ∈ blanks, isSpace c) (fresh : Bool) :
    freshAfter fresh blanks = (fresh || decide ('\n' ∈ blanks)) := by
  induction blanks generalizing fresh with
  | nil => simp [freshAfter]
  | cons c cs ih =>
    obtain ⟨space, others⟩ := List.forall_mem_cons.1 h
    rw [freshAfter, ih others, space, Bool.true_and]
    by_cases newline : c = '\n'
    · simp [newline]
    · simp [newline, Ne.symm newline]

/-- A word has one head, its own, and that only where a line starts with it. -/
theorem headsIn_word {word : List Char} (nonempty : word ≠ []) (h : ∀ c ∈ word, ¬isSpace c) (fresh : Bool)
    (rest : List Char) : headsIn fresh word rest = if fresh then [word ++ rest] else [] := by
  have inside (cs : List Char) (blankless : ∀ c ∈ cs, ¬isSpace c) : headsIn false cs rest = [] := by
    induction cs with
    | nil => rfl
    | cons c cs ih =>
      obtain ⟨noSpace, others⟩ := List.forall_mem_cons.1 blankless
      rw [headsIn, if_neg noSpace, if_neg Bool.false_ne_true, ih others]
  obtain ⟨c, cs, rfl⟩ := List.exists_cons_of_ne_nil nonempty
  obtain ⟨noSpace, others⟩ := List.forall_mem_cons.1 h
  rw [headsIn, if_neg noSpace, inside cs others]

theorem freshAfter_word {word : List Char} (nonempty : word ≠ []) (h : ∀ c ∈ word, ¬isSpace c)
    (fresh : Bool) : freshAfter fresh word = false := by
  induction word generalizing fresh with
  | nil => exact absurd rfl nonempty
  | cons c cs ih =>
    obtain ⟨noSpace, others⟩ := List.forall_mem_cons.1 h
    have stale : isSpace c = false := by simpa using noSpace
    rw [freshAfter, stale, Bool.false_and]
    by_cases last : cs = []
    · rw [last]
      rfl
    · exact ih last others false

theorem freshAfter_append (fresh : Bool) (piece more : List Char) :
    freshAfter fresh (piece ++ more) = freshAfter (freshAfter fresh piece) more := by
  induction piece generalizing fresh with
  | nil => rfl
  | cons c cs ih => exact ih _

theorem freshAfter_concat (fresh : Bool) (piece : List Char) {e : Char} (h : ¬isSpace e) :
    freshAfter fresh (piece ++ [e]) = false := by
  rw [freshAfter_append]
  exact freshAfter_word (by simp) (by simpa using h) _

/-- What follows a piece goes on with its heads. -/
theorem headsIn_eq_map (fresh : Bool) (piece rest : List Char) :
    headsIn fresh piece rest = (headsIn fresh piece []).map (· ++ rest) := by
  induction piece generalizing fresh with
  | nil => rfl
  | cons c cs ih =>
    rw [headsIn, headsIn]
    by_cases space : isSpace c
    · rw [if_pos space, if_pos space, ih]
    · rw [if_neg space, if_neg space, ih]
      cases fresh <;> simp

/-- A line that has been started ends before a fresh one. -/
theorem exists_space_of_freshAfter {piece : List Char} (h : freshAfter false piece = true) :
    ∃ c ∈ piece, isSpace c := by
  by_contra none
  have blankless : ∀ c ∈ piece, ¬isSpace c := fun c mem space => none ⟨c, mem, space⟩
  by_cases empty : piece = []
  · rw [empty] at h
    cases h
  · rw [freshAfter_word empty blankless] at h
    cases h

/-- Before a fresh line every head has a blank in it. -/
theorem exists_space_of_mem_headsIn {fresh : Bool} {piece head : List Char} (h : freshAfter fresh piece = true)
    (mem : head ∈ headsIn fresh piece []) : ∃ c ∈ head, isSpace c := by
  induction piece generalizing fresh with
  | nil => cases mem
  | cons c cs ih =>
    rw [freshAfter] at h
    rw [headsIn] at mem
    by_cases space : isSpace c
    · rw [if_pos space] at mem
      rw [space, Bool.true_and] at h
      exact ih h mem
    · rw [if_neg space] at mem
      rw [Bool.eq_false_iff.2 space, Bool.false_and] at h
      cases fresh with
      | false => exact ih h mem
      | true =>
        rcases List.mem_cons.1 mem with rfl | later
        · obtain ⟨d, inside, blank⟩ := exists_space_of_freshAfter h
          exact ⟨d, by simp [inside], blank⟩
        · exact ih h later

/-! What holds at all heads -/

section

variable {P : List Char → Prop} {piece more rest : List Char}

/-- `P` holds of every head that starts within the piece, whatever stands on the line before it. -/
def AllHeads (P : List Char → Prop) (piece rest : List Char) : Prop :=
  ∀ fresh, ∀ head ∈ headsIn fresh piece rest, P head

theorem AllHeads.append (h : AllHeads P piece (more ++ rest)) (h' : AllHeads P more rest) :
    AllHeads P (piece ++ more) rest := by
  intro fresh head mem
  rw [headsIn_append] at mem
  rcases List.mem_append.1 mem with inPiece | inMore
  · exact h fresh head inPiece
  · exact h' _ head inMore

theorem allHeads_blanks (h : ∀ c ∈ piece, isSpace c) : AllHeads P piece rest := by
  intro fresh head mem
  rw [headsIn_blanks h] at mem
  cases mem

theorem allHeads_word (h : ∀ c ∈ piece, ¬isSpace c) (holds : P (piece ++ rest)) : AllHeads P piece rest := by
  intro fresh head mem
  by_cases empty : piece = []
  · rw [empty] at mem
    cases mem
  · rw [headsIn_word empty h] at mem
    split at mem
    · obtain rfl := List.mem_singleton.1 mem
      exact holds
    · cases mem

theorem AllHeads.filterMap_eq_nil {β : Type} {read : List Char → Option β}
    (h : AllHeads (fun head => read head = none) piece rest) (fresh : Bool) :
    (headsIn fresh piece rest).filterMap read = [] :=
  List.filterMap_eq_nil_iff.2 (h fresh)

theorem AllHeads.imp {Q : List Char → Prop} (h : AllHeads P piece rest) (holds : ∀ head, P head → Q head) :
    AllHeads Q piece rest := fun fresh head mem => holds head (h fresh head mem)

end

/-! A search -/

section

variable {α : Type} {read : List Char → Option α}

/-- Where a line starts, the first head is what stands after the blanks. -/
theorem head?_headsIn_true {text : List Char} (h : skipSpaces text ≠ []) :
    (headsIn true text []).head? = some (skipSpaces text) := by
  induction text with
  | nil => exact absurd rfl h
  | cons c cs ih =>
    by_cases space : isSpace c
    · have skipped : skipSpaces (c :: cs) = skipSpaces cs := List.dropWhile_cons_of_pos space
      rw [skipped] at h
      rw [headsIn, if_pos space, Bool.true_or, ih h, skipped]
    · have kept : skipSpaces (c :: cs) = c :: cs := List.dropWhile_cons_of_neg space
      rw [headsIn, if_neg space, if_pos rfl, kept, List.append_nil]
      rfl

/-- A head at which nothing can be read may be left out. -/
theorem filterMap_headsIn_true {text : List Char} (h : read (skipSpaces text) = none) :
    (headsIn true text []).filterMap read = (headsIn false text []).filterMap read := by
  induction text with
  | nil => rfl
  | cons c cs ih =>
    by_cases space : isSpace c
    · have skipped : skipSpaces (c :: cs) = skipSpaces cs := List.dropWhile_cons_of_pos space
      rw [skipped] at h
      rw [headsIn, if_pos space, headsIn, if_pos space, Bool.true_or, Bool.false_or]
      by_cases newline : c = '\n'
      · rw [decide_eq_true newline]
      · rw [decide_eq_false newline]
        exact ih h
    · have kept : skipSpaces (c :: cs) = c :: cs := List.dropWhile_cons_of_neg space
      rw [kept] at h
      rw [headsIn, if_neg space, if_pos rfl, headsIn, if_neg space, if_neg Bool.false_ne_true,
        List.append_nil, List.filterMap_cons_none h]

theorem lineStart_some (c : Char) : Scan.lineStart (some c) = decide (c = '\n') := by
  simp [Scan.lineStart]

/-- Passing over a character where nothing is read leaves out no head at which something is. -/
theorem filterMap_headsIn_cons {prev : Option Char} {c : Char} {cs : List Char}
    (h : atLineStart read prev (c :: cs) = none) :
    (headsIn (Scan.lineStart prev) (c :: cs) []).filterMap read =
      (headsIn (Scan.lineStart (some c)) cs []).filterMap read := by
  have stale : (headsIn (Scan.lineStart prev) (c :: cs) []).filterMap read =
      (headsIn false (c :: cs) []).filterMap read := by
    cases start : Scan.lineStart prev with
    | false => rfl
    | true =>
      rw [atLineStart, if_pos start] at h
      exact filterMap_headsIn_true h
  rw [stale, lineStart_some, headsIn, Bool.false_or]
  by_cases space : isSpace c
  · rw [if_pos space]
  · have other : c ≠ '\n' := by
      rintro rfl
      exact absurd (by decide) space
    rw [if_neg space, if_neg Bool.false_ne_true, decide_eq_false other]

/-- What is found at the start of a line is read at the first head at which something can be. -/
theorem first_atLineStart (unread : read [] = none) (prev : Option Char) (text : List Char) :
    (Scan.first (atLineStart read) prev text).map Prod.snd =
      ((headsIn (Scan.lineStart prev) text []).filterMap read).head? := by
  induction text generalizing prev with
  | nil =>
    have nothing : atLineStart read prev [] = none := by
      rw [atLineStart]
      split
      · exact unread
      · rfl
    simp [Scan.first, nothing, headsIn]
  | cons c cs ih =>
    rw [Scan.first]
    cases here : atLineStart read prev (c :: cs) with
    | none =>
      rw [filterMap_headsIn_cons here, ← ih (some c), Option.map_map]
      rfl
    | some a =>
      rw [atLineStart] at here
      split at here
      next start =>
        have nonempty : skipSpaces (c :: cs) ≠ [] := by
          intro empty
          rw [empty, unread] at here
          cases here
        obtain ⟨others, split⟩ := List.head?_eq_some_iff.1 (head?_headsIn_true nonempty)
        rw [start, split, List.filterMap_cons_some here]
        rfl
      next => cases here

theorem find?_atLineStart (unread : read [] = none) (text : List Char) :
    (Scan.find? (atLineStart read) text).map Prod.snd = ((heads text).filterMap read).head? :=
  first_atLineStart unread none text

end

/-! All finds -/

/-- What is read takes a stretch that ends with a character of a word, and nothing can be read at the heads
within it. -/
def Separate {α : Type} (read : List Char → Option (α × List Char)) : Prop :=
  ∀ text a rest, read text = some (a, rest) → ∃ c cs e,
    text = c :: (cs ++ e :: rest) ∧ ¬isSpace c ∧ ¬isSpace e ∧
    ∀ head ∈ headsIn false (cs ++ [e]) rest, read head = none

/-- A stretch after blanks starts a head of its own. -/
theorem headsIn_stretch {blanks : List Char} (spaces : ∀ d ∈ blanks, isSpace d) {c : Char} (h : ¬isSpace c)
    (cs rest : List Char) :
    headsIn true (blanks ++ c :: cs) rest = (c :: cs ++ rest) :: headsIn false cs rest := by
  rw [headsIn_append, headsIn_blanks spaces, freshAfter_blanks spaces, Bool.true_or, List.nil_append, headsIn,
    if_neg h, if_pos rfl]

/-- If what is read stands separate, all finds are what is read at the heads. -/
theorem allFrom_atLineStart {α : Type} {read : List Char → Option (α × List Char)} (separate : Separate read)
    (prev : Option Char) (text : List Char) :
    Scan.allFrom (atLineStart read) 0 prev text =
      (headsIn (Scan.lineStart prev) text []).filterMap fun head => (read head).map Prod.fst := by
  generalize bound : text.length = n
  induction n using Nat.strong_induction_on generalizing prev text with
  | _ n ih =>
    cases text with
    | nil => rfl
    | cons d ds =>
      cases here : atLineStart read prev (d :: ds) with
      | none =>
        have unread : atLineStart (fun head => (read head).map Prod.fst) prev (d :: ds) = none := by
          rw [atLineStart] at here ⊢
          split at here
          next start => rw [if_pos start, here, Option.map_none]
          next start => rw [if_neg start]
        have later := ih ds.length (by simp [← bound]) (some d) ds rfl
        rw [filterMap_headsIn_cons unread, ← later, Scan.allFrom, here]
      | some found =>
        obtain ⟨a, rest⟩ := found
        have start : Scan.lineStart prev = true := by
          by_contra inLine
          rw [atLineStart, if_neg inLine] at here
          cases here
        have read' : read (skipSpaces (d :: ds)) = some (a, rest) := by rwa [atLineStart, if_pos start] at here
        obtain ⟨c, cs, e, shape, notSpace, ending, inner⟩ := separate _ a rest read'
        obtain ⟨blanks, whole, spaces⟩ := exists_skipSpaces (d :: ds)
        have split : d :: ds = (blanks ++ c :: (cs ++ [e])) ++ rest := by
          rw [whole, shape]
          simp
        have last : (blanks ++ c :: (cs ++ [e])).getLast?.or prev = some e := by
          rw [← List.cons_append, ← List.append_assoc, List.getLast?_concat]
          rfl
        have inLine : Scan.lineStart (some e) = false := by
          rw [lineStart_some]
          refine decide_eq_false ?_
          rintro rfl
          exact ending (by decide)
        have own := headsIn_stretch spaces notSpace (cs ++ [e]) rest
        have stale : freshAfter true (blanks ++ c :: (cs ++ [e])) = false := by
          rw [← List.cons_append, ← List.append_assoc]
          exact freshAfter_concat true _ ending
        have silent :
            (headsIn false (cs ++ [e]) rest).filterMap (fun head => (read head).map Prod.fst) = [] := by
          rw [List.filterMap_eq_nil_iff]
          intro head mem
          rw [inner head mem, Option.map_none]
        have shorter : rest.length < n := by
          rw [← bound, split]
          simp only [List.length_append, List.length_cons]
          omega
        have later := ih rest.length shorter (some e) rest rfl
        rw [shape] at read'
        rw [split] at here ⊢
        rw [Scan.allFrom_of_read (by simp) here, last, later, start, inLine, headsIn_append, List.append_nil,
          own, stale, List.filterMap_append, List.cons_append, List.append_assoc, List.singleton_append,
          List.filterMap_cons, read', silent]
        rfl

end ShopLint.Php
