import ShopLint.Proofs.Php.Function.Body
import ShopLint.Proofs.Php.Function.Extent
import Mathlib.Data.List.Basic
import Mathlib.Data.List.Induction

/-!
How a function ends: on a line that closes its braces, or with the text. A block is called closed when
it has braces and as many are closed as opened. That tells the two endings apart for most functions, but
not for all: a last line may close more braces than are open, and braces may be closed on lines before
the first that opens one.
-/

namespace ShopLint.Php

/-- The braces since line `first` are closed nowhere, and `last` is the last line. -/
def RunsOut (lines : List (List Char)) (first last : Nat) : Prop :=
  last = lines.length ∧ ∀ e, first ≤ e → ¬ClosesOn lines first e

namespace FunctionBlock

/-- A brace is closed on the line on which one is opened or after it, and more are closed than opened. -/
structure Overcloses (block : FunctionBlock) : Prop where
  closes_after : ∃ before after, block.lines = before ++ after ∧
    (∃ line, after.head? = some line ∧ '\x7b' ∈ line) ∧ '\x7d' ∈ after.flatten
  more : block.lines.flatten.count '\x7b' < block.lines.flatten.count '\x7d'

/-- Every line that closes braces stands before every line that opens some, and as many are opened as
closed. -/
def ClosesFirst (block : FunctionBlock) : Prop :=
  ∃ closings openings, block.lines = closings ++ openings ∧ '\x7b' ∉ closings.flatten ∧
    '\x7d' ∉ openings.flatten ∧ openings.flatten.count '\x7b' = closings.flatten.count '\x7d' ∧
    0 < openings.flatten.count '\x7b'

/-- The count of braces does not stop before the last line of the block. -/
def GoesOn (block : FunctionBlock) : Prop :=
  ∀ taken, taken <+: block.lines → taken ≠ block.lines → ¬Stops 0 false taken

theorem closed_iff (block : FunctionBlock) :
    block.closed ↔ 0 < block.lines.flatten.count '\x7b' ∧
      block.lines.flatten.count '\x7b' = block.lines.flatten.count '\x7d' := by
  rw [closed, text, count_joinLines (by decide), count_joinLines (by decide)]
  simp

end FunctionBlock

section

variable {lines : List (List Char)} {startLine : Int} {block : FunctionBlock}

/-- Where the count never stops, more braces are opened than closed, or all are closed on lines before
the first that opens one. -/
theorem unstopped_cases (h : ∀ taken, taken <+: lines → ¬Stops 0 false taken) :
    lines.flatten.count '\x7d' < lines.flatten.count '\x7b' ∨
      ∃ closings openings, lines = closings ++ openings ∧ '\x7b' ∉ closings.flatten ∧
        '\x7d' ∉ openings.flatten := by
  induction lines using List.reverseRecOn with
  | nil => exact .inr ⟨[], [], rfl, by simp, by simp⟩
  | append_singleton lines line ih =>
    by_cases closes : '\x7d' ∈ line
    · by_cases opened : '\x7b' ∈ (lines ++ [line]).flatten
      · -- the count goes on past a line that closes a brace, so some are left open
        refine .inl (Nat.lt_of_not_le fun balanced => h _ (List.prefix_refl _) ?_)
        exact ⟨.inr (by simpa using opened), ⟨line, by simp, closes⟩, by omega⟩
      · exact .inr ⟨lines ++ [line], [], by simp, opened, by simp⟩
    · have none := List.count_eq_zero.2 closes
      rcases ih fun taken lead => h taken (lead.trans (List.prefix_append _ _)) with
        more | ⟨closings, openings, rfl, unopened, unclosed⟩
      · refine .inl ?_
        simp only [List.flatten_append, List.flatten_singleton, List.count_append, none]
        omega
      · refine .inr ⟨closings, openings ++ [line], by simp, unopened, ?_⟩
        rw [List.flatten_append, List.flatten_singleton, List.mem_append]
        exact fun mem => mem.elim unclosed closes

/-- The block that is found, and how the count over its lines ends. -/
theorem stops_of_functionAt (found : functionAt lines startLine = .ok block) :
    (ClosesOn lines block.startLine block.endLine ↔ Stops 0 false block.lines) ∧
      EndsOn lines block.startLine block.endLine ∧ block.GoesOn := by
  rcases functionAt_cases lines startLine with
    ⟨_, fails⟩ | ⟨_, _, _, _, _, fails⟩ | ⟨passed, before, line, after, rfl, _, _, _, isBlock⟩
  · rw [fails] at found
    cases found
  · rw [fails] at found
    cases found
  · rw [isBlock] at found
    obtain rfl := Except.ok.inj found
    have lead := takeBlock_isPrefix 0 false (line :: after)
    have some := List.length_pos_iff.2 (takeBlock_cons_ne_nil 0 false line after)
    refine ⟨?_, endsOn_blockFrom (passed ++ before) line after, ?_⟩
    · rw [endLine_blockFrom]
      refine (closesOn_iff_stops some lead.length_le).trans ?_
      rw [← List.prefix_iff_eq_take.1 lead]
      rfl
    · intro taken isLead shorter
      have less : taken.length < (takeBlock 0 false (line :: after)).length :=
        Nat.lt_of_le_of_ne isLead.length_le fun same => shorter (isLead.eq_of_length same)
      rw [List.prefix_iff_eq_take.1 (isLead.trans lead)]
      exact (takeBlock_stops 0 false (line :: after)).2 _ less

namespace FunctionBlock

theorem GoesOn.unstopped_cases (h : block.GoesOn) (past : ¬Stops 0 false block.lines) :
    block.lines.flatten.count '\x7d' < block.lines.flatten.count '\x7b' ∨
      ∃ closings openings, block.lines = closings ++ openings ∧ '\x7b' ∉ closings.flatten ∧
        '\x7d' ∉ openings.flatten := by
  refine Php.unstopped_cases fun taken lead => ?_
  by_cases all : taken = block.lines
  · rw [all]
    exact past
  · exact h taken lead all

/-- The last line of a block on which the count stops closes a brace, and so closes one after all that
were opened. -/
theorem overcloses_of_stops (stop : Stops 0 false block.lines) (unclosed : ¬block.closed) :
    block.Overcloses := by
  obtain ⟨opened, ⟨last, isLast, closes⟩, balanced⟩ := stop
  obtain ⟨line, mem, opens⟩ := opened.resolve_left Bool.false_ne_true
  have some : 0 < block.lines.flatten.count '\x7b' :=
    List.count_pos_iff.2 (List.mem_flatten_of_mem mem opens)
  have uneven : block.lines.flatten.count '\x7b' ≠ block.lines.flatten.count '\x7d' :=
    fun same => unclosed (block.closed_iff.2 ⟨some, same⟩)
  obtain ⟨before, after, split⟩ := List.append_of_mem mem
  refine ⟨⟨before, line :: after, split, ⟨line, rfl, opens⟩, ?_⟩, by omega⟩
  rw [split, List.getLast?_append_of_ne_nil _ (List.cons_ne_nil _ _)] at isLast
  exact List.mem_flatten_of_mem (List.mem_of_getLast? isLast) closes

theorem Overcloses.stops (h : block.Overcloses) (goesOn : block.GoesOn) :
    Stops 0 false block.lines := by
  obtain ⟨⟨before, after, split, ⟨line, first, opens⟩, closes⟩, more⟩ := h
  by_contra past
  rcases goesOn.unstopped_cases past with fewer | ⟨closings, openings, eq, unopened, unclosed⟩
  · omega
  · -- the line that opens a brace is one of the openings, so no brace is closed from there on
    rw [split] at eq
    rcases List.append_eq_append_iff.1 eq with ⟨more, rfl, rfl⟩ | ⟨more, rfl, rfl⟩
    · cases more with
      | nil => exact unclosed (by simpa using closes)
      | cons head tail =>
        obtain rfl : head = line := by simpa using first
        exact unopened (by simp [opens])
    · exact unclosed (by simp [closes])

theorem Overcloses.not_closed (h : block.Overcloses) : ¬block.closed := by
  rw [closed_iff]
  have more := h.more
  omega

theorem ClosesFirst.closed (h : block.ClosesFirst) : block.closed := by
  obtain ⟨closings, openings, split, unopened, unclosed, even, some⟩ := h
  have none := List.count_eq_zero.2 unopened
  have none' := List.count_eq_zero.2 unclosed
  rw [closed_iff, split, List.flatten_append, List.count_append, List.count_append]
  omega

theorem ClosesFirst.not_stops (h : block.ClosesFirst) : ¬Stops 0 false block.lines := by
  obtain ⟨closings, openings, split, _, unclosed, _, some⟩ := h
  have nonempty : openings ≠ [] := by
    rintro rfl
    simp at some
  rintro ⟨_, ⟨last, isLast, closes⟩, _⟩
  rw [split, List.getLast?_append_of_ne_nil _ nonempty] at isLast
  exact unclosed (List.mem_flatten_of_mem (List.mem_of_getLast? isLast) closes)

theorem GoesOn.closesFirst (h : block.GoesOn) (past : ¬Stops 0 false block.lines)
    (isClosed : block.closed) : block.ClosesFirst := by
  obtain ⟨some, even⟩ := block.closed_iff.1 isClosed
  rcases h.unstopped_cases past with fewer | ⟨closings, openings, split, unopened, unclosed⟩
  · omega
  · have none := List.count_eq_zero.2 unopened
    have none' := List.count_eq_zero.2 unclosed
    rw [split, List.flatten_append, List.count_append, List.count_append] at even
    rw [split, List.flatten_append, List.count_append] at some
    exact ⟨closings, openings, split, unopened, unclosed, by omega, by omega⟩

end FunctionBlock

/-- **When a closed block is one that ended on its braces.** A function ends on the line that closes its
braces or runs out with the text. A block that closes more braces than it opens ends on its last line but
is not called closed; one that closes as many as it opens, all on lines before, runs out but is called
closed. In all other cases, and in these two never, a block is called closed just if its last line closes
its braces. -/
theorem functionAt_closed_iff (found : functionAt lines startLine = .ok block) :
    let stopped := ClosesOn lines block.startLine block.endLine
    (¬stopped ↔ RunsOut lines block.startLine block.endLine) ∧
      (block.Overcloses → stopped ∧ ¬block.closed) ∧ (block.ClosesFirst → ¬stopped ∧ block.closed) ∧
      ((block.closed ↔ stopped) ↔ ¬block.Overcloses ∧ ¬block.ClosesFirst) := by
  intro stopped
  obtain ⟨stops, ⟨order, ends⟩, goesOn⟩ := stops_of_functionAt found
  have surplus (h : block.Overcloses) : stopped ∧ ¬block.closed :=
    ⟨stops.2 (h.stops goesOn), h.not_closed⟩
  have first (h : block.ClosesFirst) : ¬stopped ∧ block.closed :=
    ⟨fun closes => h.not_stops (stops.1 closes), h.closed⟩
  refine ⟨⟨fun past => ?_, fun out => out.2 _ order⟩, surplus, first, fun same => ⟨?_, ?_⟩, ?_⟩
  · exact ends.resolve_left fun closes => past closes.1
  · exact fun h => (surplus h).2 (same.2 (surplus h).1)
  · exact fun h => (first h).1 (same.1 (first h).2)
  · rintro ⟨notOver, notFirst⟩
    refine ⟨fun isClosed => ?_, fun closes => ?_⟩
    · by_contra past
      exact notFirst (goesOn.closesFirst (fun stop => past (stops.2 stop)) isClosed)
    · by_contra unclosed
      exact notOver (FunctionBlock.overcloses_of_stops (stops.1 closes) unclosed)

end

/-- The brace of the class is closed on the line that closes its last function. -/
def sharedClosing : FunctionBlock where
  startLine := 3
  endLine := 5
  lines := ["    function f() \x7b", "        return 1;", "    \x7d\x7d"].map String.toList

theorem functionAt_closed_iff_sharedClosing :
    let lines := ["class A".toList, ['\x7b']] ++ sharedClosing.lines
    functionAt lines 1 = .ok sharedClosing ∧ sharedClosing.Overcloses ∧ ClosesOn lines 3 5 ∧
      ¬sharedClosing.closed := by
  have found : functionAt (["class A".toList, ['\x7b']] ++ sharedClosing.lines) 1 = .ok sharedClosing := by
    decide +kernel
  have surplus : sharedClosing.Overcloses :=
    ⟨⟨[], _, rfl, ⟨_, rfl, by decide +kernel⟩, by decide +kernel⟩, by decide +kernel⟩
  obtain ⟨_, stops, _⟩ := functionAt_closed_iff found
  exact ⟨found, surplus, (stops surplus).1, (stops surplus).2⟩

end ShopLint.Php
