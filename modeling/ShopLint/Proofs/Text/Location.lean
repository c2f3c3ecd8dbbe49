import ShopLint.Proofs.Path
import ShopLint.Proofs.Text.Lines
import ShopLint.Proofs.Text.Search

/-!
Where a needle stands that goes over no line end. It starts on a line just if that line holds it. So the
first line on which it starts in the whole text is the first of all lines that hold it.
-/

namespace ShopLint

theorem linesOf_append_newline (before rest : List Char) :
    linesOf (before ++ '\n' :: rest) = linesOf before ++ linesOf rest :=
  Chars.splitOn_append '\n' before rest

theorem linesOf_of_not_mem {text : List Char} (flat : '\n' ∉ text) : linesOf text = [text] :=
  Chars.splitOn_of_not_mem flat

theorem lineAfter_of_not_mem {before : List Char} (flat : '\n' ∉ before) : lineAfter before = 1 := by
  rw [lineAfter, List.count_eq_zero.2 flat]

theorem lineAfter_append_newline (line before : List Char) :
    lineAfter (line ++ '\n' :: before) = line.count '\n' + (lineAfter before + 1) := by
  simp [lineAfter, Nat.add_assoc]

section

variable {needle : List Char}

theorem standsOn_of_not_mem {line : List Char} (flat : '\n' ∉ line) {n : Nat} :
    StandsOn line needle n ↔ n = 1 ∧ needle <:+: line := by
  constructor
  · rintro ⟨before, rest, rfl, rfl⟩
    simp only [List.mem_append, not_or] at flat
    exact ⟨lineAfter_of_not_mem flat.1.1, before, rest, rfl⟩
  · rintro ⟨rfl, before, rest, rfl⟩
    simp only [List.mem_append, not_or] at flat
    exact ⟨before, rest, rfl, lineAfter_of_not_mem flat.1.1⟩

variable (nonempty : needle ≠ []) (oneLine : '\n' ∉ needle)

include nonempty oneLine

/-- A needle on one line stands on the first line or on one of the others. -/
theorem standsOn_append_newline {line rest : List Char} (flat : '\n' ∉ line) {n : Nat} :
    StandsOn (line ++ '\n' :: rest) needle n ↔
      (n = 1 ∧ needle <:+: line) ∨ ∃ m, n = m + 1 ∧ StandsOn rest needle m := by
  constructor
  · rintro ⟨before, after, split, rfl⟩
    rw [List.append_assoc] at split
    rcases List.append_eq_append_iff.1 split with ⟨more, rfl, tail⟩ | ⟨more, rfl, tail⟩
    · -- the needle starts after the first line, and not with its end
      cases more with
      | nil =>
        obtain ⟨c, cs, rfl⟩ := List.exists_cons_of_ne_nil nonempty
        obtain rfl := (List.cons.inj tail).1
        exact absurd List.mem_cons_self oneLine
      | cons c more =>
        obtain ⟨rfl, rfl⟩ := List.cons.inj tail
        refine .inr ⟨lineAfter more, ?_, more, after, by simp, rfl⟩
        rw [lineAfter_append_newline, List.count_eq_zero.2 flat, Nat.zero_add]
    · -- the needle starts on the first line, and ends there
      have flat' : '\n' ∉ before ∧ '\n' ∉ more := by simpa using flat
      refine .inl ⟨lineAfter_of_not_mem flat'.1, ?_⟩
      rcases List.append_eq_append_iff.1 tail with ⟨extra, rfl, _⟩ | ⟨extra, rfl, across⟩
      · exact ⟨before, extra, by simp⟩
      · cases extra with
        | nil => exact ⟨before, [], by simp⟩
        | cons c extra =>
          obtain rfl := (List.cons.inj across).1
          exact absurd (List.mem_append_right _ List.mem_cons_self) oneLine
  · rintro (⟨rfl, before, after, rfl⟩ | ⟨m, rfl, before, after, rfl, rfl⟩)
    · have flat' : '\n' ∉ before := fun mem => flat (by simp [mem])
      exact ⟨before, after ++ '\n' :: rest, by simp, lineAfter_of_not_mem flat'⟩
    · refine ⟨line ++ '\n' :: before, after, by simp, ?_⟩
      rw [lineAfter_append_newline, List.count_eq_zero.2 flat, Nat.zero_add]

/-- A needle on one line stands just on the lines that hold it. -/
theorem standsOn_iff_line {text : List Char} {n : Nat} :
    StandsOn text needle n ↔ ∃ i line, n = i + 1 ∧ (linesOf text)[i]? = some line ∧ needle <:+: line := by
  -- line by line, so by induction on how much text there is
  induction length : text.length using Nat.strongRecOn generalizing text n with
  | ind size ih =>
    by_cases mem : '\n' ∈ text
    · obtain ⟨line, rest, rfl, flat⟩ := List.eq_append_cons_of_mem mem
      have shorter : rest.length < size := by
        rw [← length, List.length_append, List.length_cons]
        omega
      rw [standsOn_append_newline nonempty oneLine flat, linesOf_append_newline, linesOf_of_not_mem flat]
      constructor
      · rintro (⟨rfl, inside⟩ | ⟨m, rfl, later⟩)
        · exact ⟨0, line, rfl, rfl, inside⟩
        · obtain ⟨i, found, rfl, at', inside⟩ := (ih _ shorter rfl).1 later
          exact ⟨i + 1, found, rfl, at', inside⟩
      · rintro ⟨i, found, rfl, at', inside⟩
        cases i with
        | zero =>
          obtain rfl := Option.some.inj at'
          exact .inl ⟨rfl, inside⟩
        | succ i => exact .inr ⟨i + 1, rfl, (ih _ shorter rfl).2 ⟨i, found, rfl, at', inside⟩⟩
    · rw [standsOn_of_not_mem mem, linesOf_of_not_mem mem]
      constructor
      · rintro ⟨rfl, inside⟩
        exact ⟨0, text, rfl, rfl, inside⟩
      · rintro ⟨i, line, rfl, at', inside⟩
        obtain ⟨rfl, rfl⟩ : i = 0 ∧ text = line := by simpa [List.getElem?_singleton] using at'
        exact ⟨rfl, inside⟩

end

theorem mem_findAllLines_iff {needle : List Char} (nonempty : needle ≠ []) {text : List Char} {n : Nat} :
    n ∈ findAllLines text needle ↔
      ∃ i line, n = i + 1 ∧ (linesOf text)[i]? = some line ∧ needle <:+: line := by
  rw [findAllLines, if_neg (by simpa using nonempty), mem_numbersFrom_iff]
  simp only [Chars.contains_iff_isInfix, Nat.add_comm 1]

theorem findAllLines_pairwise (text needle : List Char) : (findAllLines text needle).Pairwise (· < ·) := by
  rw [findAllLines]
  split
  · exact List.Pairwise.nil
  · exact numbersFrom_pairwise _ _ _

/-- A list in order starts with its least number. -/
theorem head?_of_least {numbers : List Nat} {least : Nat} (increasing : numbers.Pairwise (· < ·))
    (mem : least ∈ numbers) (first : ∀ n ∈ numbers, least ≤ n) : numbers.head? = some least := by
  cases numbers with
  | nil => cases mem
  | cons n rest =>
    rcases List.mem_cons.1 mem with rfl | later
    · rfl
    · have before := (List.pairwise_cons.1 increasing).1 least later
      exact absurd (first n List.mem_cons_self) (Nat.not_le_of_lt before)

/-- **The first line and all lines with a needle.** The line on which a needle starts first in the whole text
is the first of those that hold it, and there is none just if none holds it. All those are listed once and
in order, and they are the lines of the text that hold the needle. -/
theorem findLine_first_of_findAllLines {needle : List Char} (nonempty : needle ≠ [])
    (oneLine : '\n' ∉ needle) (text : List Char) :
    (findLine text needle ≠ 0 → (findAllLines text needle).head? = some (findLine text needle)) ∧
    (findLine text needle = 0 ↔ findAllLines text needle = []) ∧
    (findAllLines text needle).Pairwise (· < ·) ∧
    ∀ n, n ∈ findAllLines text needle ↔
      ∃ i line, n = i + 1 ∧ (linesOf text)[i]? = some line ∧ needle <:+: line := by
  have stands (n : Nat) : n ∈ findAllLines text needle ↔ StandsOn text needle n := by
    rw [mem_findAllLines_iff nonempty, standsOn_iff_line nonempty oneLine]
  refine ⟨?_, ?_, findAllLines_pairwise text needle, fun n => mem_findAllLines_iff nonempty⟩
  · intro found
    rcases findLine_cases nonempty text with ⟨here, least⟩ | ⟨absent, _⟩
    · exact head?_of_least (findAllLines_pairwise text needle) ((stands _).2 here)
        fun n mem => least n ((stands n).1 mem)
    · exact absurd absent found
  · rcases findLine_cases nonempty text with ⟨here, _⟩ | ⟨absent, nowhere⟩
    · have listed := (stands _).2 here
      have positive := here.one_le
      constructor
      · intro zero
        omega
      · intro none
        rw [none] at listed
        cases listed
    · refine ⟨fun _ => List.eq_nil_iff_forall_not_mem.2 fun n mem => ?_, fun _ => absent⟩
      exact nowhere n ((stands n).1 mem)

/-- Three lines, of which the last two hold the needle, one at its end and one without a newline after it. -/
def notedText : List Char := "class Cart\n\x7b // @todo\n@todo \x7d".toList

theorem findLine_first_of_findAllLines_noted :
    "@todo".toList ≠ [] ∧ '\n' ∉ "@todo".toList ∧ findLine notedText "@todo".toList = 2 ∧
      (findAllLines notedText "@todo".toList).head? = some 2 ∧ 3 ∈ findAllLines notedText "@todo".toList := by
  have nonempty : "@todo".toList ≠ [] := by decide
  have agree := findLine_first_of_findAllLines nonempty (by decide) notedText
  have second : findLine notedText "@todo".toList = 2 := by decide
  have first := agree.1 (by rw [second]; decide)
  rw [second] at first
  have third := (agree.2.2.2 3).2 ⟨2, "@todo \x7d".toList, rfl, by decide, by decide⟩
  exact ⟨nonempty, by decide, second, first, third⟩

end ShopLint
