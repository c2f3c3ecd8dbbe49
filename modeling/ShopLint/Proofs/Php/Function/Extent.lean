import ShopLint.Proofs.Php.Function
import ShopLint.Proofs.Php.Function.Declaration

/-!
How far a function goes. A function is looked for from a line on; it starts on the first line that
declares one, and ends on the first line on which the braces are closed again, or with the text.
-/

namespace ShopLint.Php

/-- The lines `first` to `last`, counted from one. -/
def linesFrom (lines : List (List Char)) (first last : Nat) : List (List Char) :=
  (lines.drop (first - 1)).take (last + 1 - first)

/-- On line `last` the braces since line `first` are closed: one has been opened, the line closes one,
and no fewer have been closed than opened. -/
structure ClosesOn (lines : List (List Char)) (first last : Nat) : Prop where
  opened : ∃ line ∈ linesFrom lines first last, '\x7b' ∈ line
  closing : ∃ line, lines[last - 1]? = some line ∧ '\x7d' ∈ line
  balanced : (linesFrom lines first last).flatten.count '\x7b' ≤
    (linesFrom lines first last).flatten.count '\x7d'

/-- The first line from `first` on that closes the braces, or the last line when there is none. -/
def EndsOn (lines : List (List Char)) (first last : Nat) : Prop :=
  first ≤ last ∧
    (ClosesOn lines first last ∧ (∀ e, first ≤ e → e < last → ¬ClosesOn lines first e) ∨
      last = lines.length ∧ ∀ e, first ≤ e → ¬ClosesOn lines first e)

/-- No function is to be found from a line on: the line is out of range, or neither it nor any line after
it declares one. -/
def NoFunctionFrom (lines : List (List Char)) (startLine : Int) : Prop :=
  startLine < 1 ∨ (lines.length : Int) < startLine ∨
    ∀ (n : Nat) (line : List Char), startLine ≤ n → lines[n - 1]? = some line → ¬Declares line

/-- The first function from a line on: where it starts, where it ends, and its lines. -/
structure IsFirstFunction (lines : List (List Char)) (startLine : Int) (block : FunctionBlock) : Prop where
  from_start : startLine ≤ block.startLine
  declares : ∃ line, lines[block.startLine - 1]? = some line ∧ Declares line
  first : ∀ (n : Nat) (line : List Char), startLine ≤ n → n < block.startLine →
    lines[n - 1]? = some line → ¬Declares line
  ends : EndsOn lines block.startLine block.endLine
  lines_eq : block.lines = linesFrom lines block.startLine block.endLine

/-! Counting braces -/

/-- The count stops after the given lines; `balance` and `opened` tell of the lines before. -/
structure Stops (balance : Int) (opened : Bool) (taken : List (List Char)) : Prop where
  opened : opened ∨ ∃ line ∈ taken, '\x7b' ∈ line
  closing : ∃ line, taken.getLast? = some line ∧ '\x7d' ∈ line
  balanced : balance + taken.flatten.count '\x7b' - taken.flatten.count '\x7d' ≤ 0

section

variable {balance : Int} {opened : Bool} {line : List Char} {lines : List (List Char)}

theorem not_stops_nil : ¬Stops balance opened [] := by
  rintro ⟨_, ⟨line, none, _⟩, _⟩
  cases none

theorem stops_singleton :
    Stops balance opened [line] ↔
      (opened || 0 < line.count '\x7b') && 0 < line.count '\x7d' &&
        balance + line.count '\x7b' - line.count '\x7d' ≤ 0 := by
  simp only [Bool.and_eq_true, Bool.or_eq_true, decide_eq_true_eq, List.count_pos_iff]
  constructor
  · rintro ⟨opens, closes, balanced⟩
    simp only [List.mem_singleton, exists_eq_left, List.getLast?_singleton, Option.some.injEq,
      exists_eq_left', List.flatten_singleton] at opens closes balanced
    exact ⟨⟨opens, closes⟩, balanced⟩
  · rintro ⟨⟨opens, closes⟩, balanced⟩
    refine ⟨by simpa using opens, ⟨line, rfl, closes⟩, ?_⟩
    rw [List.flatten_singleton]
    exact balanced

/-- The count goes on after a line with what the line adds to it. -/
theorem stops_cons (nonempty : lines ≠ []) :
    Stops balance opened (line :: lines) ↔
      Stops (balance + line.count '\x7b' - line.count '\x7d') (opened || 0 < line.count '\x7b') lines := by
  have last : (line :: lines).getLast? = lines.getLast? := by
    obtain ⟨next, others, rfl⟩ := List.exists_cons_of_ne_nil nonempty
    exact List.getLast?_cons_cons
  constructor
  · rintro ⟨opens, closes, balanced⟩
    refine ⟨?_, last ▸ closes, ?_⟩
    · simpa [List.count_pos_iff, or_assoc] using opens
    · simp only [List.flatten_cons, List.count_append] at balanced
      omega
  · rintro ⟨opens, closes, balanced⟩
    refine ⟨?_, last.symm ▸ closes, ?_⟩
    · simpa [List.count_pos_iff, or_assoc] using opens
    · simp only [List.flatten_cons, List.count_append]
      omega

/-- The lines taken are the first after which the count stops, or all of them. -/
theorem takeBlock_stops (balance : Int) (opened : Bool) (lines : List (List Char)) :
    (Stops balance opened (takeBlock balance opened lines) ∨ takeBlock balance opened lines = lines) ∧
      ∀ k < (takeBlock balance opened lines).length, ¬Stops balance opened (lines.take k) := by
  induction lines generalizing balance opened with
  | nil => exact ⟨.inr rfl, fun k less => absurd less (Nat.not_lt_zero k)⟩
  | cons line lines ih =>
    simp only [takeBlock]
    split
    next stop =>
      refine ⟨.inl (stops_singleton.2 stop), fun k less => ?_⟩
      obtain rfl : k = 0 := Nat.lt_one_iff.1 less
      exact not_stops_nil
    next goOn =>
      obtain ⟨ends, before⟩ := ih (balance + line.count '\x7b' - line.count '\x7d')
        (opened || 0 < line.count '\x7b')
      refine ⟨?_, fun k less => ?_⟩
      · rcases ends with stop | all
        · refine .inl ((stops_cons fun none => ?_).2 stop)
          rw [none] at stop
          exact not_stops_nil stop
        · exact .inr (by rw [all])
      · cases k with
        | zero => exact not_stops_nil
        | succ k =>
          rw [List.take_succ_cons]
          by_cases none : lines.take k = []
          · rw [none]
            exact fun stop => goOn (stops_singleton.1 stop)
          · rw [stops_cons none]
            exact before k (Nat.lt_of_succ_lt_succ less)

end

/-! Where the block found ends -/

section

variable {lines front found : List (List Char)} {first last other : Nat}

theorem linesFrom_append (front found : List (List Char)) (k : Nat) :
    linesFrom (front ++ found) (front.length + 1) (front.length + k) = found.take k := by
  have count : front.length + k + 1 - (front.length + 1) = k := by omega
  rw [linesFrom, Nat.add_sub_cancel, List.drop_left, count]

/-- After the first `k` lines the count stops just if the last of them closes the braces. -/
theorem closesOn_iff_stops {k : Nat} (some : 1 ≤ k) (within : k ≤ found.length) :
    ClosesOn (front ++ found) (front.length + 1) (front.length + k) ↔ Stops 0 false (found.take k) := by
  have last : (front ++ found)[front.length + k - 1]? = (found.take k).getLast? := by
    have inside : front.length ≤ front.length + k - 1 := by omega
    have place : front.length + k - 1 - front.length = k - 1 := by omega
    have bound : k - 1 < found.length := by omega
    rw [List.getElem?_append_right inside, place, List.getLast?_take, if_neg (by omega),
      List.getElem?_eq_getElem bound]
    rfl
  constructor
  · rintro ⟨opened, closing, balanced⟩
    rw [linesFrom_append] at opened balanced
    exact ⟨.inr opened, last ▸ closing, by omega⟩
  · rintro ⟨opened, closing, balanced⟩
    have count : (found.take k).flatten.count '\x7b' ≤ (found.take k).flatten.count '\x7d' := by omega
    refine ⟨?_, last.symm ▸ closing, ?_⟩
    · rw [linesFrom_append]
      simpa using opened
    · rw [linesFrom_append]
      exact count

theorem ClosesOn.le_length (h : ClosesOn lines first last) (some : 1 ≤ last) : last ≤ lines.length := by
  obtain ⟨line, found, _⟩ := h.closing
  have bound := (List.getElem?_eq_some_iff.1 found).1
  omega

theorem endLine_blockFrom (start : Nat) (line : List Char) (after : List (List Char)) :
    (blockFrom (start + 1) (line :: after)).endLine =
      start + (takeBlock 0 false (line :: after)).length := by
  simp only [blockFrom]
  omega

/-- The block that is taken ends where a function does. -/
theorem endsOn_blockFrom (front : List (List Char)) (line : List Char) (after : List (List Char)) :
    EndsOn (front ++ line :: after) (front.length + 1)
      (blockFrom (front.length + 1) (line :: after)).endLine := by
  have taken := List.prefix_iff_eq_take.1 (takeBlock_isPrefix 0 false (line :: after))
  have short := (takeBlock_isPrefix 0 false (line :: after)).length_le
  have some := List.length_pos_iff.2 (takeBlock_cons_ne_nil 0 false line after)
  obtain ⟨ends, before⟩ := takeBlock_stops 0 false (line :: after)
  rw [endLine_blockFrom]
  have earlier (e : Nat) (inside : front.length + 1 ≤ e)
      (less : e < front.length + (takeBlock 0 false (line :: after)).length) :
      ¬ClosesOn (front ++ line :: after) (front.length + 1) e := by
    obtain ⟨k, rfl⟩ : ∃ k, e = front.length + k := ⟨e - front.length, by omega⟩
    rw [closesOn_iff_stops (by omega) (by omega)]
    exact before k (by omega)
  refine ⟨by omega, ?_⟩
  by_cases stop : Stops 0 false (takeBlock 0 false (line :: after))
  · rw [taken] at stop
    exact .inl ⟨(closesOn_iff_stops some short).2 stop, earlier⟩
  · have all := ends.resolve_left stop
    rw [all] at stop earlier ⊢
    refine .inr ⟨by simp, fun e inside closes => ?_⟩
    have bound := closes.le_length (by omega)
    rw [List.length_append] at bound
    rcases Nat.lt_or_eq_of_le bound with less | rfl
    · exact earlier e inside less closes
    · rw [closesOn_iff_stops (by simp) (Nat.le_refl _), List.take_length] at closes
      exact stop closes

theorem EndsOn.unique (h : EndsOn lines first last) (h' : EndsOn lines first other) : last = other := by
  obtain ⟨le, ⟨closes, earliest⟩ | ⟨rfl, never⟩⟩ := h
  · obtain ⟨le', ⟨closes', earliest'⟩ | ⟨rfl, never'⟩⟩ := h'
    · rcases Nat.lt_trichotomy last other with less | same | more
      · exact absurd closes (earliest' last le less)
      · exact same
      · exact absurd closes' (earliest other le' more)
    · exact absurd closes (never' last le)
  · obtain ⟨le', ⟨closes', _⟩ | ⟨rfl, _⟩⟩ := h'
    · exact absurd closes' (never other le')
    · rfl

end

/-! The first function -/

section

variable {lines : List (List Char)} {startLine : Int} {block other : FunctionBlock}

/-- The items before the first that fails a test, and those from it on. -/
theorem exists_takeWhile {α : Type} (p : α → Bool) (items : List α) :
    ∃ before after, items = before ++ after ∧ (∀ item ∈ before, p item) ∧
      (∀ item, after.head? = some item → ¬p item) ∧ items.takeWhile p = before :=
  ⟨items.takeWhile p, items.dropWhile p, List.takeWhile_append_dropWhile.symm,
    fun _ mem => List.mem_takeWhile_imp mem, fun _ first => not_of_head?_dropWhile first, rfl⟩

/-- How a search ends: the line is out of range, no line from there on declares a function, or one does. -/
theorem functionAt_cases (lines : List (List Char)) (startLine : Int) :
    ((startLine < 1 ∨ (lines.length : Int) < startLine) ∧
      functionAt lines startLine = .error ⟨startLine, .outOfRange⟩) ∨
    (∃ passed before, lines = passed ++ before ∧ startLine = (passed.length + 1 : Nat) ∧
      (∀ line ∈ before, ¬Declares line) ∧
      functionAt lines startLine = .error ⟨startLine, .noDeclaration⟩) ∨
    ∃ passed before line after, lines = passed ++ before ++ line :: after ∧
      startLine = (passed.length + 1 : Nat) ∧ (∀ line ∈ before, ¬Declares line) ∧ Declares line ∧
      functionAt lines startLine = .ok (blockFrom ((passed ++ before).length + 1) (line :: after)) := by
  unfold functionAt
  split
  next outside => exact .inl ⟨by simpa using outside, rfl⟩
  next inside =>
    simp only [Bool.or_eq_true, decide_eq_true_eq, not_or, Int.not_lt] at inside
    have start : startLine = ((lines.take (startLine.toNat - 1)).length + 1 : Nat) := by
      rw [List.length_take]
      omega
    have skipped : startLine.toNat - 1 = (lines.take (startLine.toNat - 1)).length := by omega
    have whole : lines = lines.take (startLine.toNat - 1) ++ lines.drop (startLine.toNat - 1) :=
      (List.take_append_drop _ _).symm
    obtain ⟨before, after, rest, undeclared, stops, taken⟩ :=
      exists_takeWhile (fun line => !declaresFunction line) (lines.drop (startLine.toNat - 1))
    have none : ∀ line ∈ before, ¬Declares line := by
      intro line mem
      rw [← declaresFunction_iff]
      simpa using undeclared line mem
    dsimp only
    rw [taken, rest, List.drop_left]
    cases after with
    | nil =>
      rw [rest, List.append_nil] at whole
      exact .inr (.inl ⟨_, before, whole, start, none, rfl⟩)
    | cons line after =>
      rw [rest, ← List.append_assoc] at whole
      have declares : Declares line := by
        rw [← declaresFunction_iff]
        simpa using stops line rfl
      refine .inr (.inr ⟨_, before, line, after, whole, start, none, declares, ?_⟩)
      rw [List.length_append, ← skipped]
      rfl

theorem IsFirstFunction.unique (h : IsFirstFunction lines startLine block)
    (h' : IsFirstFunction lines startLine other) : block = other := by
  have start : block.startLine = other.startLine := by
    obtain ⟨line, found, declares⟩ := h.declares
    obtain ⟨line', found', declares'⟩ := h'.declares
    rcases Nat.lt_trichotomy block.startLine other.startLine with less | same | more
    · exact absurd declares (h'.first _ line h.from_start less found)
    · exact same
    · exact absurd declares' (h.first _ line' h'.from_start more found')
  have stop : block.endLine = other.endLine := by
    have ends := h.ends
    rw [start] at ends
    exact ends.unique h'.ends
  have text : block.lines = other.lines := by rw [h.lines_eq, h'.lines_eq, start, stop]
  cases block
  cases other
  simp_all

/-- Lines between the start of the search and the first declaration. -/
theorem mem_of_getElem?_between {passed before rest : List (List Char)} {n : Nat} {line : List Char}
    (lower : passed.length + 1 ≤ n) (upper : n < (passed ++ before).length + 1)
    (found : (passed ++ before ++ rest)[n - 1]? = some line) : line ∈ before := by
  have inFront : n - 1 < (passed ++ before).length := by omega
  have inBefore : passed.length ≤ n - 1 := by omega
  rw [List.getElem?_append_left inFront, List.getElem?_append_right inBefore] at found
  exact List.mem_of_getElem? found

theorem isFirstFunction_blockFrom {passed before : List (List Char)} {line : List Char}
    (undeclared : ∀ line ∈ before, ¬Declares line) (declares : Declares line) (after : List (List Char)) :
    IsFirstFunction (passed ++ before ++ line :: after) (passed.length + 1 : Nat)
      (blockFrom ((passed ++ before).length + 1) (line :: after)) where
  from_start := by
    simp only [blockFrom, List.length_append]
    omega
  declares := ⟨line, by simp [blockFrom], declares⟩
  first := fun n other lower upper found =>
    undeclared other (mem_of_getElem?_between (Int.ofNat_le.1 lower) upper found)
  ends := endsOn_blockFrom _ line after
  lines_eq := by
    have taken := List.prefix_iff_eq_take.1 (takeBlock_isPrefix 0 false (line :: after))
    rw [endLine_blockFrom]
    exact taken.trans (linesFrom_append _ _ _).symm

/-- A first function rules out that there is none. -/
theorem IsFirstFunction.not_noFunctionFrom (h : IsFirstFunction lines startLine block)
    (start : 1 ≤ startLine) : ¬NoFunctionFrom lines startLine := by
  obtain ⟨line, found, declares⟩ := h.declares
  have bound := (List.getElem?_eq_some_iff.1 found).1
  have below := h.from_start
  rintro (before | after | none)
  · omega
  · omega
  · exact none block.startLine line below found declares

/-- The search fails when there is no function, and gives the first one when there is. -/
theorem functionAt_outcome (lines : List (List Char)) (startLine : Int) :
    (∃ e, functionAt lines startLine = .error e ∧ NoFunctionFrom lines startLine) ∨
    ∃ block, functionAt lines startLine = .ok block ∧ 1 ≤ startLine ∧
      IsFirstFunction lines startLine block := by
  rcases functionAt_cases lines startLine with
    ⟨outside, fails⟩ | ⟨passed, before, rfl, rfl, undeclared, fails⟩ |
      ⟨passed, before, line, after, rfl, rfl, undeclared, declares, found⟩
  · exact .inl ⟨_, fails, or_assoc.1 (.inl outside)⟩
  · refine .inl ⟨_, fails, .inr (.inr fun n line lower found => ?_)⟩
    have inBefore : passed.length ≤ n - 1 := by omega
    rw [List.getElem?_append_right inBefore] at found
    exact undeclared line (List.mem_of_getElem? found)
  · exact .inr ⟨_, found, by omega, isFirstFunction_blockFrom undeclared declares after⟩

end

/-- **How far a function goes.** The search fails just if the line is out of range or no line from it on
declares a function. Otherwise it gives the first function: the first line that declares one, and the
lines up to the first on which the braces are closed again, or up to the last when there is none. -/
theorem functionAt_exact (lines : List (List Char)) (startLine : Int) :
    ((∃ e, functionAt lines startLine = .error e) ↔ NoFunctionFrom lines startLine) ∧
    ∀ block, functionAt lines startLine = .ok block ↔
      1 ≤ startLine ∧ IsFirstFunction lines startLine block := by
  rcases functionAt_outcome lines startLine with ⟨e, fails, none⟩ | ⟨found, ok, start, isFirst⟩
  · refine ⟨⟨fun _ => none, fun _ => ⟨e, fails⟩⟩, fun block => ⟨fun ok => ?_, fun h => ?_⟩⟩
    · rw [fails] at ok
      cases ok
    · exact absurd none (h.2.not_noFunctionFrom h.1)
  · rw [ok]
    refine ⟨⟨fun ⟨e, fails⟩ => ?_, fun none => absurd none (isFirst.not_noFunctionFrom start)⟩,
      fun block => ⟨fun same => ?_, fun h => ?_⟩⟩
    · cases fails
    · cases same
      exact ⟨start, isFirst⟩
    · rw [isFirst.unique h.2]

end ShopLint.Php
