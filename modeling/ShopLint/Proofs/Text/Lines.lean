import ShopLint.Rule.Basic

/-!
Line numbers: every way of finding a line of a text gives a line that the text has.
-/

namespace ShopLint

theorem Chars.length_splitOn (sep : Char) (text : List Char) :
    (splitOn sep text).length = text.count sep + 1 := by
  induction text with
  | nil => rfl
  | cons c cs ih =>
    by_cases h : c = sep
    · simp [splitOn, h, ih]
    · obtain ⟨piece, others, pieces, extended⟩ := splitOn_cons_of_ne h cs
      rw [extended, List.length_cons, ← List.length_cons (a := piece), ← pieces, ih, List.count_cons_of_ne h]

@[simp] theorem length_linesOf (text : List Char) : (linesOf text).length = text.count '\n' + 1 :=
  Chars.length_splitOn '\n' text

theorem Chars.not_mem_of_mem_splitOn {sep : Char} {text piece : List Char} (h : piece ∈ splitOn sep text) :
    sep ∉ piece := by
  induction text generalizing piece with
  | nil =>
    obtain rfl := List.mem_singleton.1 h
    simp
  | cons c cs ih =>
    by_cases separates : c = sep
    · rw [splitOn, if_pos separates] at h
      rcases List.mem_cons.1 h with rfl | mem
      · simp
      · exact ih mem
    · obtain ⟨first, rest, pieces, extended⟩ := splitOn_cons_of_ne separates cs
      rw [extended] at h
      rw [pieces] at ih
      rcases List.mem_cons.1 h with rfl | mem
      · have absent := ih List.mem_cons_self
        simp [absent, Ne.symm separates]
      · exact ih (List.mem_cons_of_mem _ mem)

theorem newline_not_mem_of_mem_linesOf {text line : List Char} (h : line ∈ linesOf text) : '\n' ∉ line :=
  Chars.not_mem_of_mem_splitOn h

theorem lineAfter_le {before text : List Char} (h : before <+: text) :
    lineAfter before ≤ (linesOf text).length := by
  have fewer := h.sublist.count_le '\n'
  simpa [lineAfter] using fewer

theorem findLine_le (text needle : List Char) : findLine text needle ≤ (linesOf text).length := by
  simp only [findLine]
  split
  · exact Nat.zero_le _
  · split
    next before rest found =>
      apply lineAfter_le
      rw [Chars.cut_eq_some found, List.append_assoc]
      exact List.prefix_append before (needle ++ rest)
    next => exact Nat.zero_le _

/-- The numbers of the lines that pass, counted from `start`. -/
theorem mem_numbersFrom_iff {p : List Char → Bool} {lines : List (List Char)} {start n : Nat} :
    n ∈ numbersFrom start p lines ↔ ∃ i line, n = start + i ∧ lines[i]? = some line ∧ p line := by
  induction lines generalizing start with
  | nil => simp [numbersFrom]
  | cons first lines ih =>
    have later : n ∈ numbersFrom (start + 1) p lines ↔
        ∃ i line, n = start + (i + 1) ∧ (first :: lines)[i + 1]? = some line ∧ p line := by
      simp only [ih, List.getElem?_cons_succ, Nat.add_assoc, Nat.add_comm 1]
    constructor
    · intro mem
      simp only [numbersFrom] at mem
      split at mem
      next holds =>
        rcases List.mem_cons.1 mem with rfl | mem
        · exact ⟨0, first, rfl, rfl, holds⟩
        · obtain ⟨i, line, found⟩ := later.1 mem
          exact ⟨i + 1, line, found⟩
      next =>
        obtain ⟨i, line, found⟩ := later.1 mem
        exact ⟨i + 1, line, found⟩
    · rintro ⟨i, line, rfl, found, holds⟩
      simp only [numbersFrom]
      cases i with
      | zero =>
        obtain rfl := Option.some.inj found
        rw [if_pos holds]
        exact List.mem_cons_self
      | succ i =>
        have mem := later.2 ⟨i, line, rfl, found, holds⟩
        split
        · exact List.mem_cons_of_mem _ mem
        · exact mem

theorem mem_numbersFrom {p : List Char → Bool} {lines : List (List Char)} {start n : Nat}
    (h : n ∈ numbersFrom start p lines) : start ≤ n ∧ n < start + lines.length := by
  obtain ⟨i, line, rfl, found, _⟩ := mem_numbersFrom_iff.1 h
  have inside := (List.getElem?_eq_some_iff.1 found).1
  omega

theorem numbersFrom_pairwise (start : Nat) (p : List Char → Bool) (lines : List (List Char)) :
    (numbersFrom start p lines).Pairwise (· < ·) := by
  induction lines generalizing start with
  | nil => exact List.Pairwise.nil
  | cons line lines ih =>
    simp only [numbersFrom]
    split
    · exact List.pairwise_cons.2 ⟨fun n mem => (mem_numbersFrom mem).1, ih (start + 1)⟩
    · exact ih (start + 1)

theorem mem_findAllLines {text needle : List Char} {n : Nat} (h : n ∈ findAllLines text needle) :
    1 ≤ n ∧ n ≤ (linesOf text).length := by
  simp only [findAllLines] at h
  split at h
  · simp at h
  · have := mem_numbersFrom h
    omega

/-- A numbered line stands after as many lines as its number tells. -/
theorem mem_numbered {lines : List (List Char)} {n : Nat} {line : List Char}
    (h : (n, line) ∈ numbered lines) :
    ∃ before after, lines = before ++ line :: after ∧ n = before.length + 1 := by
  obtain ⟨i, bound, eq⟩ := List.getElem_of_mem h
  simp only [numbered, List.getElem_zip, List.getElem_range', Prod.mk.injEq] at eq
  simp only [numbered, List.length_zip, List.length_range', Nat.min_self] at bound
  refine ⟨lines.take i, lines.drop (i + 1), ?_, ?_⟩
  · rw [← eq.2, List.getElem_cons_drop, List.take_append_drop]
  · rw [List.length_take]
    omega

theorem numbers_nodup (lines : List (List Char)) : ((numbered lines).map Prod.fst).Nodup := by
  have numbers : (numbered lines).map Prod.fst = List.range' 1 lines.length := by
    rw [numbered, List.map_fst_zip]
    simp
  rw [numbers]
  exact List.nodup_range'

/-- What comes of one line of a text, when nothing comes of the others. -/
theorem flatMap_numbered {β : Type} {g : Nat × List Char → List β} {lines : List (List Char)} {n : Nat}
    {line : List Char} (h : (n, line) ∈ numbered lines)
    (others : ∀ m other, (m, other) ∈ numbered lines → m ≠ n → g (m, other) = []) :
    (numbered lines).flatMap g = g (n, line) := by
  have distinct := numbers_nodup lines
  obtain ⟨front, back, split⟩ := List.append_of_mem h
  rw [split, List.map_append, List.map_cons, List.nodup_append] at distinct
  obtain ⟨_, afterwards, apart⟩ := distinct
  have before : front.flatMap g = [] := by
    rw [List.flatMap_eq_nil_iff]
    rintro ⟨m, other⟩ mem
    refine others m other (split ▸ List.mem_append_left _ mem) ?_
    exact apart m (List.mem_map_of_mem mem) n List.mem_cons_self
  have after : back.flatMap g = [] := by
    rw [List.flatMap_eq_nil_iff]
    rintro ⟨m, other⟩ mem
    refine others m other (split ▸ List.mem_append_right _ (List.mem_cons_of_mem _ mem)) ?_
    rintro rfl
    have listed : m ∈ back.map Prod.fst := List.mem_map_of_mem mem
    exact (List.nodup_cons.1 afterwards).1 listed
  rw [split, List.flatMap_append, List.flatMap_cons, before, after, List.nil_append, List.append_nil]

end ShopLint
