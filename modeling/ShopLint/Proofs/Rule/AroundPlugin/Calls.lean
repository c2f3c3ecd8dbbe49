import ShopLint.Proofs.Php.Function.Body
import ShopLint.Proofs.Php.Function.Extent
import ShopLint.Proofs.Rule.AroundPlugin
import ShopLint.Proofs.Text.Search

/-!
Where the rule about around plugins looks for a call. It looks in the body of a method, which leaves out
what follows the first brace on the declaration line of a method over several lines, and some or all of
the last line. A method that calls its callable is reported just if every call stands there.
-/

namespace ShopLint.AroundPlugin

/-- How a call of the variable is written: a blank may stand before the parenthesis. -/
inductive IsCall (name : List Char) : List Char → Prop
  | tight : IsCall name ('$' :: (name ++ ['(']))
  | spaced : IsCall name ('$' :: (name ++ [' ', '(']))

/-- The variable of the given name is called in the text. -/
def Calls (name text : List Char) : Prop := ∃ call, IsCall name call ∧ call <:+: text

theorem calls_iff {name text : List Char} : calls name text ↔ Calls name text := by
  simp only [calls, Bool.or_eq_true, Chars.contains_iff_isInfix]
  constructor
  · rintro (inside | inside)
    · exact ⟨_, .tight, by simpa using inside⟩
    · exact ⟨_, .spaced, by simpa using inside⟩
  · rintro ⟨_, ⟨_⟩ | ⟨_⟩, inside⟩
    · exact .inl (by simpa using inside)
    · exact .inr (by simpa using inside)

/-- What follows the first opening brace. -/
def afterBrace (text : List Char) : List Char := (text.dropWhile (· ≠ '\x7b')).tail

/-- What follows the first brace on the declaration line of a function over several lines. -/
def unseenOpening (block : Php.FunctionBlock) : List Char :=
  match block.lines with
  | declaration :: _ :: _ => afterBrace declaration
  | _ => []

/-- What is left out of the last line after the first brace. On a single line, that is what follows the
last closing brace, or all of it when there is none. At the end of a closed function over several lines,
it is the whole line when that starts with a closing brace, and else what follows the last one. -/
def unseenClosing (block : Php.FunctionBlock) : List Char :=
  let rest := Chars.afterLast '\n' (afterBrace block.text)
  match block.lines with
  | [] => []
  | [_] => Chars.afterLast '\x7d' rest
  | _ :: second :: others =>
    let last := (second :: others).getLast (List.cons_ne_nil _ _)
    if block.closed ∧ '\x7d' ∈ last then
      if Php.StartsClosing last then rest else Chars.afterLast '\x7d' rest
    else []

section

variable {name call text : List Char}

theorem IsCall.head? (h : IsCall name call) : call.head? = some '$' := by
  cases h <;> rfl

theorem IsCall.getLast? (h : IsCall name call) : call.getLast? = some '(' := by
  cases h <;> simp [List.getLast?_cons]

variable (words : ∀ c ∈ name, isWord c)

include words in
theorem IsCall.not_mem (h : IsCall name call) {c : Char} (other : c ∈ ['\n', '\x7b', '\x7d']) :
    c ∉ call := by
  have noWord : ¬isWord c := by
    revert other
    simp only [List.mem_cons, List.not_mem_nil, or_false]
    rintro (rfl | rfl | rfl) <;> decide
  have notIn : c ∉ name := fun mem => noWord (words c mem)
  simp only [List.mem_cons, List.not_mem_nil, or_false] at other
  cases h <;> rcases other with rfl | rfl | rfl <;> simp [notIn]

theorem Calls.mono (h : Calls name text) {more : List Char} (inside : text <:+: more) : Calls name more := by
  obtain ⟨call, isCall, found⟩ := h
  exact ⟨call, isCall, found.trans inside⟩

theorem not_calls_nil : ¬Calls name [] := by
  rintro ⟨call, isCall, inside⟩
  have first := isCall.head?
  rw [List.infix_nil.1 inside] at first
  cases first

include words in
/-- A newline or a brace divides the calls of a text. -/
theorem calls_append_cons {c : Char} (other : c ∈ ['\n', '\x7b', '\x7d']) (before rest : List Char) :
    Calls name (before ++ c :: rest) ↔ Calls name before ∨ Calls name rest := by
  constructor
  · rintro ⟨call, isCall, inside⟩
    rcases (Chars.infix_append_cons_iff (isCall.not_mem words other) before rest).1 inside with left | right
    · exact .inl ⟨call, isCall, left⟩
    · exact .inr ⟨call, isCall, right⟩
  · rintro (left | right)
    · exact left.mono (List.prefix_append _ _).isInfix
    · exact right.mono (List.suffix_append_of_suffix (List.suffix_cons c rest)).isInfix

/-- No call starts or ends with a blank. -/
theorem Calls.trim (h : Calls name text) : Calls name (Chars.trimWhile isBlank text) := by
  obtain ⟨call, isCall, inside⟩ := h
  obtain ⟨lead, tail, split, before, after⟩ := Chars.exists_trimWhile isBlank text
  have visible {c : Char} (h : isBlank c = false) {part : List Char} (blank : ∀ d ∈ part, isBlank d) :
      c ∉ part := fun mem => by simp [blank c mem] at h
  rw [split] at inside
  have right := Chars.infix_of_append_left isCall.head? (visible (by decide) before) inside
  exact ⟨call, isCall, Chars.infix_of_append_right isCall.getLast? (visible (by decide) after) right⟩

theorem Calls.dropRightWhile (h : Calls name text) :
    Calls name (Chars.dropRightWhile (fun c => c = ' ' || c = '\t') text) := by
  obtain ⟨call, isCall, inside⟩ := h
  obtain ⟨tail, split, dropped⟩ := Chars.exists_dropRightWhile (fun c => c = ' ' || c = '\t') text
  rw [split] at inside
  refine ⟨call, isCall, Chars.infix_of_append_right isCall.getLast? (fun mem => ?_) inside⟩
  exact absurd (dropped _ mem) (by decide)

include words in
theorem calls_joinLines (lines : List (List Char)) :
    Calls name (Php.joinLines lines) ↔ ∃ line ∈ lines, Calls name line := by
  induction lines with
  | nil => simpa [Php.joinLines, List.intercalate] using not_calls_nil
  | cons line lines ih =>
    by_cases none : lines = []
    · simp [none, Php.joinLines, List.intercalate]
    · rw [Php.joinLines_cons none, calls_append_cons words (by simp), ih, List.exists_mem_cons_iff]

theorem not_calls_of_isLoneBrace (h : Php.IsLoneBrace text) : ¬Calls name text := by
  intro calls
  have trimmed := calls.trim
  rw [h] at trimmed
  obtain ⟨call, isCall, inside⟩ := trimmed
  have mem := inside.subset (List.mem_of_mem_head? isCall.head?)
  simp at mem

end

/-! What follows the first brace -/

section

variable {before : List Char}

theorem afterBrace_append_of_mem (h : '\x7b' ∈ before) (rest : List Char) :
    afterBrace (before ++ rest) = afterBrace before ++ rest := by
  obtain ⟨c, more, found⟩ : ∃ c more, before.dropWhile (· ≠ '\x7b') = c :: more := by
    refine List.exists_cons_of_ne_nil fun none => ?_
    exact absurd (List.dropWhile_eq_nil_iff.1 none _ h) (by simp)
  rw [afterBrace, List.dropWhile_append, afterBrace, found]
  rfl

theorem afterBrace_append_of_not_mem (h : '\x7b' ∉ before) (rest : List Char) :
    afterBrace (before ++ rest) = afterBrace rest := by
  have skipped : ∀ c ∈ before, (decide (c ≠ '\x7b')) = true := by
    intro c mem
    exact decide_eq_true fun brace => h (brace ▸ mem)
  rw [afterBrace, List.dropWhile_append_of_pos skipped, afterBrace]

theorem afterBrace_of_not_mem (h : '\x7b' ∉ before) : afterBrace before = [] := by
  have none := afterBrace_append_of_not_mem h []
  rwa [List.append_nil] at none

theorem afterBrace_suffix (text : List Char) : afterBrace text <:+ text :=
  (List.tail_suffix _).trans (List.dropWhile_suffix _)

end

/-! What the body leaves out -/

section

variable {name : List Char} (words : ∀ c ∈ name, isWord c) {block : Php.FunctionBlock}

theorem dropClosing_append (kept : List (List Char)) (last : List Char) :
    Php.dropClosing (kept ++ [last]) = kept ++ Php.dropClosing [last] := by
  simp only [Php.dropClosing, List.getLast?_append, List.getLast?_singleton, Option.some_or,
    List.dropLast_concat, List.dropLast_singleton, List.nil_append]
  split
  · simp
  · split <;> rfl

theorem infix_of_mem_dropClosing {line last : List Char} (h : line ∈ Php.dropClosing [last]) :
    line <:+: last := by
  simp only [Php.dropClosing, List.getLast?_singleton, List.dropLast_singleton, List.nil_append] at h
  split at h
  · cases h
  · split at h
    next cut tail found =>
      obtain rfl := List.mem_singleton.1 h
      obtain ⟨blanks, trimmed, _⟩ := Chars.exists_dropRightWhile (fun c => c = ' ' || c = '\t') cut
      refine List.IsInfix.trans ⟨[], blanks, by simpa using trimmed.symm⟩ ?_
      rw [Chars.cutLast_eq_some found, List.append_assoc]
      exact (List.prefix_append _ _).isInfix
    next =>
      obtain rfl := List.mem_singleton.1 h
      exact List.infix_rfl

include words in
/-- Before the last line, nothing that calls is left out of the body. -/
theorem calls_body_of_mem {declaration second last line : List Char} {others kept : List (List Char)}
    (eq : block.lines = declaration :: second :: others) (inner : second :: others = kept ++ [last])
    (mem : line ∈ kept ++ if block.closed then Php.dropClosing [last] else [last])
    (calls : Calls name line) : Calls name block.body := by
  have body_of {lines : List (List Char)} (isBody : block.bodyLines = lines ++ [last])
      (listed : line ∈ lines ++ if block.closed then Php.dropClosing [last] else [last]) :
      Calls name block.body := by
    have body : block.body =
        Php.joinLines (if block.closed then Php.dropClosing block.bodyLines else block.bodyLines) := by
      simp only [Php.FunctionBlock.body, Php.FunctionBlock.bodyLines, eq]
      rfl
    rw [body, calls_joinLines words, isBody]
    refine ⟨line, ?_, calls⟩
    split at listed
    · rwa [if_pos ‹_›, dropClosing_append]
    · rwa [if_neg ‹_›]
  by_cases lone : Php.IsLoneBrace second
  · cases kept with
    | nil =>
      obtain ⟨rfl, rfl⟩ := List.cons.inj inner
      refine absurd (calls.mono ?_) (not_calls_of_isLoneBrace lone)
      rw [List.nil_append] at mem
      split at mem
      · exact infix_of_mem_dropClosing mem
      · obtain rfl := List.mem_singleton.1 mem
        exact List.infix_rfl
    | cons first kept =>
      obtain ⟨rfl, rest⟩ := List.cons.inj inner
      rcases List.mem_cons.1 mem with rfl | mem
      · exact absurd calls (not_calls_of_isLoneBrace lone)
      · exact body_of (by simpa [Php.FunctionBlock.bodyLines, eq, lone] using rest) mem
  · exact body_of (by simpa [Php.FunctionBlock.bodyLines, eq, lone] using inner) mem

include words in
/-- A call at the end of the last line is kept unless it is cut off. -/
theorem calls_dropClosing_or {last rest : List Char} (tail : rest <:+ last) (calls : Calls name rest) :
    (∃ line ∈ Php.dropClosing [last], Calls name line) ∨
      '\x7d' ∈ last ∧
        Calls name (if Php.StartsClosing last then rest else Chars.afterLast '\x7d' rest) := by
  by_cases closing : '\x7d' ∈ last
  · by_cases starts : Php.StartsClosing last
    · exact .inr ⟨closing, by rwa [if_pos starts]⟩
    · rw [if_neg starts]
      by_cases inside : '\x7d' ∈ rest
      · obtain ⟨cut, after, rfl, none⟩ := Chars.exists_last inside
        obtain ⟨front, rfl⟩ := tail
        rw [Chars.afterLast_append, Chars.afterLast_of_not_mem none]
        rcases (calls_append_cons words (by simp) cut after).1 calls with before | behind
        · refine .inl ⟨_, ?_, (before.mono (List.suffix_append front cut).isInfix).dropRightWhile⟩
          have kept := @Php.FunctionBlock.dropClosing_concat (front ++ cut) after none []
          rw [List.append_assoc, List.nil_append, if_neg starts] at kept
          rw [kept]
          exact List.mem_singleton_self _
        · exact .inr ⟨closing, behind⟩
      · rw [Chars.afterLast_of_not_mem inside]
        exact .inr ⟨closing, calls⟩
  · refine .inl ⟨last, ?_, calls.mono tail.isInfix⟩
    have starts : (Chars.trimWhile isBlank last).head? ≠ some '\x7d' := by
      intro first
      obtain ⟨lead, more, split, _⟩ := Chars.exists_trimWhile isBlank last
      refine closing ?_
      rw [split]
      exact List.mem_append_right _ (List.mem_append_left _ (List.mem_of_mem_head? first))
    simp [Php.dropClosing, starts, Chars.cutLast_singleton_eq_none closing]

include words in
/-- A single line: what follows the first brace is the body, but for what follows the last one. -/
theorem calls_oneLine {line : List Char} (calls : Calls name (afterBrace line)) :
    Calls name (Php.oneLineBody line) ∨ Calls name (Chars.afterLast '\x7d' (afterBrace line)) := by
  by_cases opening : '\x7b' ∈ line
  · obtain ⟨lead, rest, rfl, absent⟩ := List.eq_append_cons_of_mem opening
    have after : afterBrace (lead ++ '\x7b' :: rest) = rest := afterBrace_append_of_not_mem absent _
    rw [after] at calls ⊢
    by_cases closing : '\x7d' ∈ rest
    · obtain ⟨body, tail, rfl, none⟩ := Chars.exists_last closing
      rw [Chars.afterLast_append, Chars.afterLast_of_not_mem none, Php.oneLineBody,
        Chars.cut_singleton_append absent]
      simp only [Chars.cutLast_singleton_append none]
      exact ((calls_append_cons words (by simp) body tail).1 calls).imp_left Calls.trim
    · rw [Chars.afterLast_of_not_mem closing]
      exact .inr calls
  · rw [afterBrace_of_not_mem opening] at calls
    exact absurd calls not_calls_nil

include words in
/-- Several lines: what follows the first brace is the rest of the declaration line, or not on that line,
and then some last part of the lines after it. -/
theorem calls_severalLines {declaration second : List Char} {others : List (List Char)}
    (eq : block.lines = declaration :: second :: others) (calls : Calls name (afterBrace block.text)) :
    ∃ rest, rest <:+ Php.joinLines (second :: others) ∧
      Chars.afterLast '\n' (afterBrace block.text) = Chars.afterLast '\n' rest ∧
      (Calls name (unseenOpening block) ∨ Calls name rest) := by
  have text : block.text = declaration ++ '\n' :: Php.joinLines (second :: others) := by
    rw [Php.FunctionBlock.text, eq, Php.joinLines_cons (List.cons_ne_nil _ _)]
  by_cases opening : '\x7b' ∈ declaration
  · have after : afterBrace block.text =
        afterBrace declaration ++ '\n' :: Php.joinLines (second :: others) := by
      rw [text, afterBrace_append_of_mem opening]
    rw [after] at calls ⊢
    refine ⟨_, List.suffix_rfl, Chars.afterLast_append _ _, ?_⟩
    simp only [unseenOpening, eq]
    exact (calls_append_cons words (by simp) _ _).1 calls
  · have after : afterBrace block.text = afterBrace (Php.joinLines (second :: others)) := by
      rw [text, afterBrace_append_of_not_mem opening]
      rfl
    rw [after] at calls ⊢
    exact ⟨_, afterBrace_suffix _, rfl, .inr calls⟩

include words in
/-- A call in a last part of some lines stands before the last of them, or in what is left of that. -/
theorem calls_lastLine {kept : List (List Char)} {last rest : List Char}
    (flat : ∀ line ∈ kept ++ [last], '\n' ∉ line) (tail : rest <:+ Php.joinLines (kept ++ [last]))
    (calls : Calls name rest) :
    Chars.afterLast '\n' rest <:+ last ∧
      ((∃ line ∈ kept, Calls name line) ∨ Calls name (Chars.afterLast '\n' rest)) := by
  have unbroken : '\n' ∉ last := flat last (by simp)
  by_cases none : kept = []
  · have single : Php.joinLines (kept ++ [last]) = last := by
      simp [none, Php.joinLines, List.intercalate]
    rw [single] at tail
    have flatRest : '\n' ∉ rest := fun mem => unbroken (tail.subset mem)
    rw [Chars.afterLast_of_not_mem flatRest]
    exact ⟨tail, .inr calls⟩
  · have join := Php.joinLines_concat none last
    rw [join] at tail
    have ends := Chars.afterLast_mono (c := '\n') tail
    rw [Chars.afterLast_append, Chars.afterLast_of_not_mem unbroken] at ends
    refine ⟨ends, ?_⟩
    by_cases broken : '\n' ∈ rest
    · obtain ⟨before, after, rfl, absent⟩ := Chars.exists_last broken
      rw [Chars.afterLast_append, Chars.afterLast_of_not_mem absent]
      rcases (calls_append_cons words (by simp) before after).1 calls with inKept | inLast
      · obtain ⟨front, split⟩ := tail
        rw [← List.append_assoc] at split
        have whole := (Chars.eq_of_append_cons_last split absent unbroken).1
        refine .inl ((calls_joinLines words kept).1 (inKept.mono ?_))
        exact ⟨front, [], by simpa using whole⟩
      · exact .inr inLast
    · rw [Chars.afterLast_of_not_mem broken]
      exact .inr calls

theorem unseenOpening_isInfix (block : Php.FunctionBlock) :
    unseenOpening block <:+: afterBrace block.text := by
  unfold unseenOpening
  split
  next declaration second others eq =>
    by_cases opening : '\x7b' ∈ declaration
    · rw [Php.FunctionBlock.text, eq, Php.joinLines_cons (List.cons_ne_nil _ _),
        afterBrace_append_of_mem opening]
      exact (List.prefix_append _ _).isInfix
    · rw [afterBrace_of_not_mem opening]
      exact List.nil_infix
  next => exact List.nil_infix

theorem unseenClosing_isInfix (block : Php.FunctionBlock) :
    unseenClosing block <:+: afterBrace block.text := by
  have last := (Chars.afterLast_suffix '\n' (afterBrace block.text)).isInfix
  have closing := ((Chars.afterLast_suffix '\x7d' _).isInfix).trans last
  unfold unseenClosing
  dsimp only
  split
  · exact List.nil_infix
  · exact closing
  · split
    · split
      · exact last
      · exact closing
    · exact List.nil_infix

include words in
/-- A call that the body does not have stands in what the body leaves out. -/
theorem calls_afterBrace_iff (flat : ∀ line ∈ block.lines, '\n' ∉ line)
    (uncalled : ¬Calls name block.body) :
    Calls name (afterBrace block.text) ↔
      Calls name (unseenOpening block) ∨ Calls name (unseenClosing block) := by
  constructor
  · intro calls
    match eq : block.lines with
    | [] =>
      rw [Php.FunctionBlock.text, eq] at calls
      exact absurd calls not_calls_nil
    | [line] =>
      have text : block.text = line := by simp [Php.FunctionBlock.text, eq, Php.joinLines, List.intercalate]
      have unbroken : '\n' ∉ afterBrace line := fun mem =>
        flat line (by simp [eq]) ((afterBrace_suffix line).subset mem)
      rw [text] at calls
      have body : block.body = Php.oneLineBody line := by simp only [Php.FunctionBlock.body, eq]
      have unseen := (calls_oneLine words calls).resolve_left (body ▸ uncalled)
      refine .inr ?_
      simpa only [unseenClosing, eq, text, Chars.afterLast_of_not_mem unbroken] using unseen
    | declaration :: second :: others =>
      obtain ⟨rest, tail, sameLast, opening | calls⟩ := calls_severalLines words eq calls
      · exact .inl opening
      · obtain ⟨kept, last, inner⟩ := (List.eq_nil_or_concat' (second :: others)).resolve_left (by simp)
        have flatInner : ∀ line ∈ kept ++ [last], '\n' ∉ line := by
          rw [← inner]
          exact fun line mem => flat line (eq ▸ List.mem_cons_of_mem _ mem)
        have seen {line : List Char}
            (mem : line ∈ kept ++ if block.closed then Php.dropClosing [last] else [last]) :
            ¬Calls name line := fun calls => uncalled (calls_body_of_mem words eq inner mem calls)
        rw [inner] at tail
        obtain ⟨isTail, ⟨line, mem, inKept⟩ | inLast⟩ := calls_lastLine words flatInner tail calls
        · exact absurd inKept (seen (List.mem_append_left _ mem))
        · rw [← sameLast] at isTail inLast
          by_cases closed : block.closed
          · rw [if_pos closed] at seen
            rcases calls_dropClosing_or words isTail inLast with ⟨line, mem, calls⟩ | ⟨closing, unseen⟩
            · exact absurd calls (seen (List.mem_append_right _ mem))
            · have isLast : (second :: others).getLast (List.cons_ne_nil _ _) = last := by simp [inner]
              refine .inr ?_
              simp only [unseenClosing, eq, isLast]
              rwa [if_pos ⟨closed, closing⟩]
          · rw [if_neg closed] at seen
            exact absurd (inLast.mono isTail.isInfix) (seen (by simp))
  · rintro (opening | closing)
    · exact opening.mono (unseenOpening_isInfix block)
    · exact closing.mono (unseenClosing_isInfix block)

end

/-! What is reported -/

/-- The occurrence for an around method that never goes on. -/
def alarm (path : String) (method : List Char) (block : Php.FunctionBlock) : Occurrence :=
  let message := s!"{String.ofList method}() never calls ${String.ofList (proceedName block)}(); " ++
    "the original method and later plugins will not run"
  { occurrenceAt path block.startLine .error message with endLine := block.endLine }

theorem isWord_of_mem_callableParam? {text name : List Char} (h : callableParam? text = some name) :
    ∀ c ∈ name, isWord c := by
  simp only [callableParam?, Option.bind_eq_bind] at h
  split at h
  all_goals
    simp only [Option.bind_eq_some_iff, Option.map_eq_some_iff] at h
    obtain ⟨_, _, _, _, _, _, ⟨word, after⟩, spanned, rfl⟩ := h
    exact Chars.of_mem_span1? spanned

theorem isWord_of_mem_proceedName {block : Php.FunctionBlock} : ∀ c ∈ proceedName block, isWord c := by
  unfold proceedName
  split
  next before name found =>
    obtain ⟨rest, _, read⟩ := (Scan.find?_eq_some_iff.1 found).1
    exact isWord_of_mem_callableParam? read
  next => exact List.all_eq_true.1 (by decide)

/-- What is found on a line: an around method, the block that goes with it, and no call in its body. -/
theorem ofLine_eq_some_iff {src : SourceFile} {n : Nat} {line : List Char} {o : Occurrence} :
    ofLine src (n, line) = some o ↔
      ∃ method block, aroundMethod? line = some method ∧ Php.functionAt src.lines n = .ok block ∧
        ¬Calls (proceedName block) block.body ∧ o = alarm src.path method block := by
  simp only [ofLine, Option.bind_eq_some_iff, ← calls_iff]
  refine exists_congr fun method => ?_
  unfold inspect
  split
  next failed => simp [failed, Except.toOption]
  next block found =>
    dsimp only
    split
    next called => simp [found, called, Except.toOption]
    next uncalled =>
      simp only [found, Except.toOption, Option.join_some, Option.some.injEq, Except.ok.injEq]
      constructor
      · rintro ⟨isAround, rfl⟩
        exact ⟨block, isAround, rfl, uncalled, rfl⟩
      · rintro ⟨_, isAround, rfl, -, rfl⟩
        exact ⟨isAround, rfl⟩

theorem mem_of_mem_functionAt {lines : List (List Char)} {startLine : Int} {block : Php.FunctionBlock}
    (found : Php.functionAt lines startLine = .ok block) {line : List Char} (mem : line ∈ block.lines) :
    line ∈ lines := by
  obtain ⟨_, failed⟩ | ⟨_, _, _, _, _, failed⟩ | ⟨passed, before, first, after, rfl, _, _, _, ok⟩ :=
    Php.functionAt_cases lines startLine
  · simp [failed] at found
  · simp [failed] at found
  · obtain rfl := Except.ok.inj (found.symm.trans ok)
    exact List.mem_append_right _ ((Php.takeBlock_isPrefix 0 false (first :: after)).subset mem)

/-- **When the rule reports a method that calls its callable.** The rule never fails. It reports the
around methods whose bodies do not call their callable. Such a method calls it after the first brace all
the same just if it does so on the declaration line, with the method going on below, or in that part of
the last line that is left out with the closing brace. -/
theorem find_reports_called_iff (host : Host) (files : Classification) :
    ∃ found, find host files = .ok found ∧
      (∀ o, o ∈ found ↔ ∃ src ∈ sources host files, ∃ n line method block,
        (n, line) ∈ numbered src.lines ∧ aroundMethod? line = some method ∧
        Php.functionAt src.lines n = .ok block ∧ ¬Calls (proceedName block) block.body ∧
        o = alarm src.path method block) ∧
      ∀ src ∈ sources host files, ∀ n block, Php.functionAt src.lines n = .ok block →
        ¬Calls (proceedName block) block.body →
        (Calls (proceedName block) (afterBrace block.text) ↔
          Calls (proceedName block) (unseenOpening block) ∨
            Calls (proceedName block) (unseenClosing block)) := by
  refine ⟨_, find_ok host files, fun o => ?_, fun src _ n block found uncalled => ?_⟩
  · simp only [List.mem_flatMap, List.mem_filterMap, Prod.exists, ofLine_eq_some_iff]
    constructor
    · rintro ⟨src, mem, n, line, listed, method, block, rest⟩
      exact ⟨src, mem, n, line, method, block, listed, rest⟩
    · rintro ⟨src, mem, n, line, method, block, listed, rest⟩
      exact ⟨src, mem, n, line, listed, method, block, rest⟩
  · refine calls_afterBrace_iff isWord_of_mem_proceedName (fun line mem => ?_) uncalled
    exact newline_not_mem_of_mem_linesOf (mem_of_mem_functionAt found mem)

/-- A call that starts on the declaration line and goes on below. -/
def brokenCall : Php.FunctionBlock where
  startLine := 1
  endLine := 3
  lines := ["function aroundSave($subject, callable $proceed) \x7b return $proceed(", "    $subject",
    "); \x7d"].map String.toList

example : calls (proceedName brokenCall) brokenCall.body = false ∧
    calls (proceedName brokenCall) (unseenOpening brokenCall) = true := by
  decide +kernel

end ShopLint.AroundPlugin
