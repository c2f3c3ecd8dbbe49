import ShopLint.Proofs.Php.Function.Declaration
import ShopLint.Proofs.Placement
import ShopLint.Proofs.Text.Lines
import ShopLint.Proofs.Text.Scan
import ShopLint.Proofs.Text.Search
import ShopLint.Proofs.Text.Trim
import ShopLint.Rule.TemplateOutput

/-!
The short echoes of a template line. Each one ends at its own closing mark, so the expressions of a line
are those between its marks, one by one, and each is judged by its own text.
-/

namespace ShopLint.TemplateOutput

/-- The mark that opens a short echo. -/
def openMark : List Char := "<?=".toList

/-- The mark that closes it. -/
def closeMark : List Char := "?>".toList

/-- One short echo of a line: what stands between its marks, and the text up to the next one. -/
structure Echo where
  inner : List Char
  after : List Char
  inner_open : ¬closeMark <:+: inner
  after_free : ¬openMark <:+: after

def Echo.text (e : Echo) : List Char := openMark ++ (e.inner ++ (closeMark ++ e.after))

/-- A line of a template divided by its short echoes. Nothing else is printed on it. -/
structure EchoLine where
  lead : List Char
  echoes : List Echo
  lead_free : ¬openMark <:+: lead
  oneLine : '\n' ∉ lead ++ echoes.flatMap Echo.text
  noEcho : ¬"echo".toList <:+: lead ++ echoes.flatMap Echo.text

def EchoLine.text (line : EchoLine) : List Char := line.lead ++ line.echoes.flatMap Echo.text

/-- What may stand between an expression and the closing mark: a semicolon or none, with blanks around it. -/
def IsEnding (text : List Char) : Prop :=
  ∃ front mark back, text = front ++ (mark ++ back) ∧ (∀ c ∈ front, isSpace c) ∧ (mark = [] ∨ mark = [';']) ∧
    ∀ c ∈ back, isSpace c

/-- What a short echo prints: the text between its marks without the blanks before it and without the
longest ending, trimmed. -/
def Prints (inner printed : List Char) : Prop :=
  ∃ blanks core ending, inner = blanks ++ (core ++ ending) ∧ (∀ c ∈ blanks, isSpace c) ∧
    (∀ c, (core ++ ending).head? = some c → ¬isSpace c) ∧ IsEnding ending ∧
    (∀ shorter longer, core ++ ending = shorter ++ longer → IsEnding longer → core.length ≤ shorter.length) ∧
    printed = Chars.trimWhile isBlank core

/-- The expression takes data from the block and is not marked as safe. -/
def IsSuspect (inner : List Char) : Prop :=
  "$block->".toList <:+: inner ∧ ∀ mark ∈ safeOutput, ¬mark.toList <:+: inner

instance (inner : List Char) : Decidable (IsSuspect inner) := inferInstanceAs (Decidable (_ ∧ _))

/-! Where a short echo ends -/

/-- The rest of a text after what may be an ending at its start. -/
def afterEnding (text : List Char) : List Char := Php.skipSpaces (Php.skipChar ';' (Php.skipSpaces text))

theorem afterEnding_eq_nil_iff {text : List Char} : afterEnding text = [] ↔ IsEnding text := by
  constructor
  · intro h
    obtain ⟨front, frontEq, frontBlank⟩ := Php.exists_skipSpaces text
    obtain ⟨mark, isMark, markEq⟩ := Php.skipChar_eq ';' (Php.skipSpaces text)
    have back : ∀ c ∈ Php.skipChar ';' (Php.skipSpaces text), isSpace c := List.dropWhile_eq_nil_iff.1 h
    exact ⟨front, mark, _, by rw [← markEq, ← frontEq], frontBlank, isMark, back⟩
  · rintro ⟨front, mark, back, rfl, frontBlank, isMark, backBlank⟩
    have dropped : Php.skipSpaces back = [] := List.dropWhile_eq_nil_iff.2 backBlank
    unfold afterEnding
    rw [Php.skipSpaces_append frontBlank]
    rcases isMark with rfl | rfl
    · rw [List.nil_append, dropped]
      rfl
    · exact dropped

instance (text : List Char) : Decidable (IsEnding text) := decidable_of_iff _ afterEnding_eq_nil_iff

/-- What stands before the longest ending of a text. -/
def beforeEnding : List Char → List Char
  | [] => []
  | c :: cs => if IsEnding (c :: cs) then [] else c :: beforeEnding cs

theorem exists_beforeEnding (text : List Char) :
    ∃ ending, text = beforeEnding text ++ ending ∧ IsEnding ending ∧
      ∀ shorter longer, text = shorter ++ longer → IsEnding longer →
        (beforeEnding text).length ≤ shorter.length := by
  induction text with
  | nil => exact ⟨[], rfl, ⟨[], [], [], rfl, by simp, .inl rfl, by simp⟩, fun _ _ _ _ => Nat.zero_le _⟩
  | cons c cs ih =>
    by_cases all : IsEnding (c :: cs)
    · rw [beforeEnding, if_pos all]
      exact ⟨c :: cs, rfl, all, fun _ _ _ _ => Nat.zero_le _⟩
    · rw [beforeEnding, if_neg all]
      obtain ⟨ending, split, isEnding, shortest⟩ := ih
      refine ⟨ending, congrArg (c :: ·) split, isEnding, ?_⟩
      intro shorter longer eq isLonger
      cases shorter with
      | nil => exact absurd (eq ▸ isLonger) all
      | cons d ds => exact Nat.succ_le_succ (shortest ds longer (List.cons.inj eq).2 isLonger)

/-- What a short echo prints. -/
def printed (inner : List Char) : List Char :=
  Chars.trimWhile isBlank (beforeEnding (Php.skipSpaces inner))

theorem prints_printed (inner : List Char) : Prints inner (printed inner) := by
  obtain ⟨blanks, split, areBlanks⟩ := Php.exists_skipSpaces inner
  obtain ⟨ending, parts, isEnding, shortest⟩ := exists_beforeEnding (Php.skipSpaces inner)
  refine ⟨blanks, beforeEnding (Php.skipSpaces inner), ending, ?_, areBlanks, ?_, isEnding, ?_, rfl⟩
  · rw [← parts, ← split]
  · rw [← parts]
    exact fun c first => Php.not_of_head?_dropWhile first
  · rw [← parts]
    exact shortest

/-- A short echo prints one thing. -/
theorem Prints.unique {inner text other : List Char} (h : Prints inner text) (h' : Prints inner other) :
    text = other := by
  obtain ⟨blanks, core, ending, split, areBlanks, starts, isEnding, shortest, rfl⟩ := h
  obtain ⟨blanks', core', ending', split', areBlanks', starts', isEnding', shortest', rfl⟩ := h'
  have whole : Php.skipSpaces inner = core ++ ending := by
    rw [split, Php.skipSpaces_append areBlanks, Php.skipSpaces_of_head starts]
  have whole' : Php.skipSpaces inner = core' ++ ending' := by
    rw [split', Php.skipSpaces_append areBlanks', Php.skipSpaces_of_head starts']
  have same : core ++ ending = core' ++ ending' := whole.symm.trans whole'
  have lengths : core.length = core'.length :=
    Nat.le_antisymm (shortest core' ending' same isEnding') (shortest' core ending same.symm isEnding)
  rw [(List.append_inj same lengths).1]

theorem skipSpaces_before_mark (text rest : List Char) :
    Php.skipSpaces (text ++ (closeMark ++ rest)) = Php.skipSpaces text ++ (closeMark ++ rest) := by
  unfold Php.skipSpaces
  rw [List.dropWhile_append]
  split
  next blank =>
    rw [List.isEmpty_iff.1 blank]
    rfl
  next => rfl

theorem skipChar_before_mark (text rest : List Char) :
    Php.skipChar ';' (text ++ (closeMark ++ rest)) = Php.skipChar ';' text ++ (closeMark ++ rest) := by
  cases text with
  | nil => rfl
  | cons c cs =>
    simp only [List.cons_append, Php.skipChar]
    split <;> rfl

/-- Before the first closing mark an end is seen just where an ending starts. -/
theorem closing?_before_mark {text : List Char} (h : ¬closeMark <:+: text) (rest : List Char) :
    closing? (text ++ (closeMark ++ rest)) = if IsEnding text then some rest else none := by
  have reached : closing? (text ++ (closeMark ++ rest)) =
      Php.word? "?>" (afterEnding text ++ (closeMark ++ rest)) := by
    unfold closing? afterEnding
    rw [skipSpaces_before_mark, skipChar_before_mark, skipSpaces_before_mark]
  have isSuffix : afterEnding text <:+ text := by
    obtain ⟨mark, _, split⟩ := Php.skipChar_eq ';' (Php.skipSpaces text)
    have marked : Php.skipChar ';' (Php.skipSpaces text) <:+ Php.skipSpaces text := ⟨mark, split.symm⟩
    exact (List.dropWhile_suffix isSpace).trans (marked.trans (List.dropWhile_suffix isSpace))
  rw [reached]
  split
  next isEnding =>
    rw [afterEnding_eq_nil_iff.2 isEnding]
    exact Chars.after?_eq_some.2 rfl
  next notEnding =>
    rw [Option.eq_none_iff_forall_ne_some]
    intro after found
    have spelled : afterEnding text ++ (closeMark ++ rest) = closeMark ++ after := Chars.after?_eq_some.1 found
    -- a mark that starts before the first one would have to lie in the text
    match tail : afterEnding text with
    | [] => exact notEnding (afterEnding_eq_nil_iff.1 tail)
    | [c] =>
      rw [tail] at spelled
      exact absurd (List.cons.inj (List.cons.inj spelled).2).1 (by decide)
    | c :: d :: more =>
      rw [tail] at spelled isSuffix
      obtain ⟨rfl, inner⟩ := List.cons.inj spelled
      obtain ⟨rfl, _⟩ := List.cons.inj inner
      have starts : closeMark <+: closeMark ++ more := List.prefix_append _ _
      exact h (starts.isInfix.trans isSuffix.isInfix)

theorem upToClosing?_before_mark {text : List Char} (h : ¬closeMark <:+: text) (oneLine : '\n' ∉ text)
    (rest : List Char) : upToClosing? (text ++ (closeMark ++ rest)) = some (beforeEnding text, rest) := by
  induction text with
  | nil =>
    have ends : closing? ('?' :: '>' :: rest) = some rest :=
      (closing?_before_mark h rest).trans (if_pos (afterEnding_eq_nil_iff.1 rfl))
    show upToClosing? ('?' :: '>' :: rest) = some ([], rest)
    rw [upToClosing?, ends]
  | cons c cs ih =>
    have ends := closing?_before_mark h rest
    have inLine : c ≠ '\n' := fun eq => oneLine (eq ▸ List.mem_cons_self)
    have later := ih (fun inside => h (inside.trans (List.suffix_cons c cs).isInfix))
      (fun mem => oneLine (List.mem_cons_of_mem c mem))
    rw [List.cons_append] at ends ⊢
    by_cases all : IsEnding (c :: cs)
    · rw [if_pos all] at ends
      simp only [upToClosing?, beforeEnding, ends, if_pos all]
    · rw [if_neg all] at ends
      simp only [upToClosing?, beforeEnding, ends, if_neg all, if_neg inLine, later, Option.map_some]

/-! The expressions of a line -/

/-- A short echo is read up to its own closing mark. -/
theorem shortEcho?_text {inner : List Char} (h : ¬closeMark <:+: inner) (oneLine : '\n' ∉ inner)
    (rest : List Char) :
    shortEcho? (openMark ++ (inner ++ (closeMark ++ rest))) =
      some (beforeEnding (Php.skipSpaces inner), rest) := by
  have opened : Php.word? "<?=" (openMark ++ (inner ++ (closeMark ++ rest))) =
      some (inner ++ (closeMark ++ rest)) := Chars.after?_eq_some.2 rfl
  have isSuffix : Php.skipSpaces inner <:+ inner := List.dropWhile_suffix isSpace
  rw [shortEcho?, opened, Option.bind_eq_bind, Option.bind_some, skipSpaces_before_mark]
  apply upToClosing?_before_mark
  · exact fun inside => h (inside.trans isSuffix.isInfix)
  · exact fun mem => oneLine (isSuffix.subset mem)

/-- No short echo is read in a text without an opening mark, nor over its end into the next mark. -/
theorem shortEcho?_eq_none {text rest : List Char} (free : ¬openMark <:+: text)
    (next : ∀ c, rest.head? = some c → c = '<') {front back : List Char} (split : text = front ++ back)
    (nonempty : back ≠ []) : shortEcho? (back ++ rest) = none := by
  have unopened : Php.word? "<?=" (back ++ rest) = none := by
    rw [Option.eq_none_iff_forall_ne_some]
    intro after found
    have spelled : back ++ rest = '<' :: '?' :: '=' :: after := Chars.after?_eq_some.1 found
    match back with
    | [] => exact nonempty rfl
    | [c] =>
      have second : rest = '?' :: '=' :: after := (List.cons.inj spelled).2
      exact absurd (next '?' (by rw [second]; rfl)) (by decide)
    | [c, d] =>
      have third : rest = '=' :: after := (List.cons.inj (List.cons.inj spelled).2).2
      exact absurd (next '=' (by rw [third]; rfl)) (by decide)
    | c :: d :: e :: more =>
      simp only [List.cons_append, List.cons.injEq] at spelled
      obtain ⟨rfl, rfl, rfl, _⟩ := spelled
      exact free ⟨front, more, by rw [split]; simp [openMark]⟩
  rw [shortEcho?, unopened]
  rfl

/-- The finds from some text on that has no opening mark, and over the echoes after it. -/
theorem allFrom_shortEcho {lead : List Char} {echoes : List Echo} (free : ¬openMark <:+: lead)
    (oneLine : '\n' ∉ lead ++ echoes.flatMap Echo.text) (prev : Option Char) :
    Scan.allFrom (fun _ text => shortEcho? text) 0 prev (lead ++ echoes.flatMap Echo.text) =
      echoes.map fun e => beforeEnding (Php.skipSpaces e.inner) := by
  induction echoes generalizing lead prev with
  | nil =>
    rw [Scan.allFrom_of_unread]
    · rfl
    · intro front back split nonempty
      exact shortEcho?_eq_none free (by simp) split nonempty
  | cons e es ih =>
    rw [List.flatMap_cons, Scan.allFrom_of_unread]
    · have spelled : e.text ++ es.flatMap Echo.text =
          (openMark ++ (e.inner ++ closeMark)) ++ (e.after ++ es.flatMap Echo.text) := by
        simp [Echo.text]
      have inLine : '\n' ∉ e.inner ∧ '\n' ∉ e.after ++ es.flatMap Echo.text := by
        simp only [List.flatMap_cons, Echo.text, List.mem_append, not_or] at oneLine ⊢
        tauto
      have read := shortEcho?_text e.inner_open inLine.1 (e.after ++ es.flatMap Echo.text)
      rw [spelled, Scan.allFrom_of_read (by simp [openMark]) (by simpa using read), ih e.after_free inLine.2,
        List.map_cons]
    · intro front back split nonempty
      exact shortEcho?_eq_none free (by simp [Echo.text, openMark]) split nonempty

theorem all_echo_eq_nil {line : List Char} (h : ¬"echo".toList <:+: line) : Scan.all echo? line = [] := by
  have unread := @Scan.allFrom_of_unread _ echo? none line [] ?_
  · rw [List.append_nil] at unread
    rw [Scan.all, unread]
    rfl
  · intro front back split _
    have unworded : Php.word? "echo" (back ++ []) = none := by
      rw [Option.eq_none_iff_forall_ne_some]
      intro after found
      rw [List.append_nil] at found
      exact h ⟨front, after, by rw [split, Chars.after?_eq_some.1 found, List.append_assoc]⟩
    unfold echo?
    split
    · rfl
    · rw [unworded]
      rfl

theorem outputExpressions_text (line : EchoLine) :
    outputExpressions line.text = line.echoes.map fun e => printed e.inner := by
  have found : Scan.all (fun _ text => shortEcho? text) line.text =
      line.echoes.map fun e => beforeEnding (Php.skipSpaces e.inner) :=
    allFrom_shortEcho line.lead_free line.oneLine none
  have others : Scan.all echo? line.text = [] := all_echo_eq_nil line.noEcho
  rw [outputExpressions, found, others, List.append_nil, List.map_map]
  rfl

/-! What is reported of a line -/

/-- A mark of which no character is trimmed stands in what is printed just if it stands between the marks. -/
theorem infix_printed_iff {mark inner : List Char} (nonempty : mark ≠ [])
    (kept : ∀ c ∈ mark, ¬isBlank c ∧ c ≠ ';') : mark <:+: printed inner ↔ mark <:+: inner := by
  obtain ⟨blanks, core, ending, split, areBlanks, _, isEnding, _, isPrinted⟩ := prints_printed inner
  obtain ⟨lead, tail, parts, leadBlank, tailBlank⟩ := Chars.exists_trimWhile isBlank core
  rw [← isPrinted] at parts
  have whole : inner = (blanks ++ lead) ++ (printed inner ++ (tail ++ ending)) := by
    rw [parts] at split
    simpa using split
  have before : ∀ c ∈ blanks ++ lead, isBlank c := by
    intro c mem
    rcases List.mem_append.1 mem with mem | mem
    · exact isBlank_of_isSpace (areBlanks c mem)
    · exact leadBlank c mem
  have after : ∀ c ∈ tail ++ ending, isBlank c ∨ c = ';' := by
    obtain ⟨front, semicolon, back, rfl, frontBlank, isMark, backBlank⟩ := isEnding
    intro c mem
    simp only [List.mem_append] at mem
    rcases mem with mem | mem | mem | mem
    · exact .inl (tailBlank c mem)
    · exact .inl (isBlank_of_isSpace (frontBlank c mem))
    · rcases isMark with rfl | rfl
      · cases mem
      · exact .inr (List.mem_singleton.1 mem)
    · exact .inl (isBlank_of_isSpace (backBlank c mem))
  constructor
  · intro inside
    rw [whole]
    exact inside.trans (List.infix_append' _ _ _)
  · intro inside
    rw [whole] at inside
    obtain ⟨first, isFirst⟩ := Option.isSome_iff_exists.1 (List.isSome_head?.2 nonempty)
    obtain ⟨last, isLast⟩ := Option.isSome_iff_exists.1 (List.getLast?_isSome.2 nonempty)
    have fromFirst := Chars.infix_of_append_left isFirst
      (fun mem => (kept first (List.mem_of_head? isFirst)).1 (before first mem)) inside
    apply Chars.infix_of_append_right isLast _ fromFirst
    intro mem
    obtain ⟨solid, noSemicolon⟩ := kept last (List.mem_of_getLast? isLast)
    exact (after last mem).elim solid noSemicolon

theorem isUnescaped_printed (inner : List Char) : isUnescaped (printed inner) ↔ IsSuspect inner := by
  have block : "$block->".toList <:+: printed inner ↔ "$block->".toList <:+: inner :=
    infix_printed_iff (by decide) (by decide)
  have safe (mark : String) (mem : mark ∈ safeOutput) :
      mark.toList <:+: printed inner ↔ mark.toList <:+: inner := by
    have solid : ∀ m ∈ safeOutput, m.toList ≠ [] ∧ ∀ c ∈ m.toList, ¬isBlank c ∧ c ≠ ';' := by decide
    exact infix_printed_iff (solid mark mem).1 (solid mark mem).2
  simp only [isUnescaped, IsSuspect, Bool.and_eq_true, Bool.not_eq_true', List.any_eq_false,
    Chars.contains_iff_isInfix, block]
  exact and_congr_right fun _ => forall₂_congr fun mark mem => not_congr (safe mark mem)

/-- The occurrences for a line: one for each suspect echo on it. -/
def EchoLine.occurrences (line : EchoLine) (path : String) (n : Nat) : List Occurrence :=
  (line.echoes.filter fun e => IsSuspect e.inner).map fun e =>
    occurrenceAt path n .warning s!"unescaped output of {String.ofList (printed e.inner)}"

theorem occurrences_text (line : EchoLine) (path : String) (n : Nat) :
    ((outputExpressions line.text).filter isUnescaped).map
      (fun expression => occurrenceAt path n .warning s!"unescaped output of {String.ofList expression}") =
      line.occurrences path n := by
  have judged : (fun e : Echo => isUnescaped (printed e.inner)) = fun e => decide (IsSuspect e.inner) := by
    funext e
    rw [Bool.eq_iff_iff, isUnescaped_printed, decide_eq_true_eq]
  rw [outputExpressions_text, List.filter_map, List.map_map, EchoLine.occurrences, ← judged]
  rfl

theorem inspectFile_line {src : SourceFile} {line : EchoLine} {n : Nat}
    (h : (n, line.text) ∈ numbered src.lines) :
    (inspectFile src).filter (fun o => o.startLine = (n : Int)) = line.occurrences src.path n := by
  have startLine (m : Nat) (text : List Char) (mem : (m, text) ∈ numbered src.lines) (message : String) :
      (occurrenceAt src.path m .warning message).startLine = m := by
    obtain ⟨before, _, _, number⟩ := mem_numbered mem
    simp only [occurrenceAt]
    omega
  unfold inspectFile
  rw [List.filter_flatMap, flatMap_numbered h, ← occurrences_text, List.filter_eq_self]
  · intro o mem
    obtain ⟨expression, _, rfl⟩ := List.mem_map.1 mem
    rw [startLine n line.text h, decide_eq_true_eq]
  · intro m other mem apart
    rw [List.filter_eq_nil_iff]
    intro o inLine
    obtain ⟨expression, _, rfl⟩ := List.mem_map.1 inLine
    rw [startLine m other mem, decide_eq_true_eq]
    omega

/-- Files that are empty or cannot be read have nothing to report. -/
theorem find_eq (host : Host) (files : Classification) :
    find host files = (files.files FileType.phtml).flatMap fun path =>
      inspectFile ⟨path, (host.readOrEmpty path).toList⟩ := by
  unfold find
  induction files.files FileType.phtml with
  | nil => rfl
  | cons path paths ih =>
    rw [loadAll_cons, List.flatMap_cons, ← ih]
    split
    next empty =>
      have nothing : inspectFile ⟨path, (host.readOrEmpty path).toList⟩ = [] := by
        rw [empty]
        rfl
      rw [nothing, List.nil_append]
    next => rw [List.flatMap_cons]

theorem file_of_mem_inspectFile {src : SourceFile} {o : Occurrence} (h : o ∈ inspectFile src) :
    o.file = src.path := by
  obtain ⟨_, _, inLine⟩ := List.mem_flatMap.1 h
  obtain ⟨_, _, rfl⟩ := List.mem_map.1 inLine
  rfl

/-- **Every short echo of a line is judged once and by itself.** The expressions of a line are what its
short echoes print, in order. For each time that a file is listed the rule reports, of such a line of it,
the suspect echoes, one by one, and nothing else. -/
theorem run_judges_each_echo (host : Host) (files : Classification) (index : ClassIndex) (line : EchoLine) :
    outputExpressions line.text = line.echoes.map (fun e => printed e.inner) ∧
    (∀ e ∈ line.echoes, ∀ text, Prints e.inner text ↔ text = printed e.inner) ∧
    ∀ path n, (n, line.text) ∈ numbered (linesOf (host.readOrEmpty path).toList) →
      ∃ found, rule.run host files index = .ok (index, found) ∧
        found.filter (fun o => o.file = path ∧ o.startLine = (n : Int)) =
          (List.replicate ((files.files FileType.phtml).count path) (line.occurrences path n)).flatten := by
  refine ⟨outputExpressions_text line, ?_, ?_⟩
  · intro e _ text
    constructor
    · exact fun prints => prints.unique (prints_printed e.inner)
    · rintro rfl
      exact prints_printed e.inner
  · intro path n isLine
    refine ⟨find host files, rfl, ?_⟩
    rw [find_eq, List.filter_flatMap]
    induction files.files FileType.phtml with
    | nil => rfl
    | cons first others ih =>
      rw [List.flatMap_cons, ih]
      by_cases here : first = path
      · subst here
        have inFile : (inspectFile ⟨first, (host.readOrEmpty first).toList⟩).filter
            (fun o => o.file = first ∧ o.startLine = (n : Int)) = line.occurrences first n := by
          have inLine := @inspectFile_line ⟨first, (host.readOrEmpty first).toList⟩ line n isLine
          rw [← inLine]
          apply List.filter_congr
          intro o mem
          simp only [file_of_mem_inspectFile mem, true_and]
        rw [inFile, List.count_cons_self, List.replicate_succ, List.flatten_cons]
      · have elsewhere : (inspectFile ⟨first, (host.readOrEmpty first).toList⟩).filter
            (fun o => o.file = path ∧ o.startLine = (n : Int)) = [] := by
          rw [List.filter_eq_nil_iff]
          intro o mem both
          rw [decide_eq_true_eq, file_of_mem_inspectFile mem] at both
          exact here both.1
        rw [elsewhere, List.count_cons_of_ne here, List.nil_append]

/-- An echo through an escaper. -/
def escapedEcho : Echo :=
  ⟨" $block->escapeHtml($a) ".toList, ", ".toList, by decide +kernel, by decide +kernel⟩

/-- An echo without one. -/
def bareEcho : Echo :=
  ⟨"$block->getName() ; ".toList, "</p>".toList, by decide +kernel, by decide +kernel⟩

/-- Both on one line. -/
def mixedLine : EchoLine where
  lead := "<p>".toList
  echoes := [escapedEcho, bareEcho]
  lead_free := by decide +kernel
  oneLine := by decide +kernel
  noEcho := by decide +kernel

def mixedTree : List (String × Entry) :=
  [("list.phtml", .text (String.ofList ("<div>\n".toList ++ mixedLine.text)))]

def mixedHost : Host where
  tree := .dir [("srv", .dir mixedTree)]
  cwd := "/"
  env := {}

def mixedFiles : Classification := .ofList [(FileType.phtml, ["/srv/list.phtml"])]

theorem readOrEmpty_mixed :
    mixedHost.readOrEmpty "/srv/list.phtml" = String.ofList ("<div>\n".toList ++ mixedLine.text) := by
  have placed : mixedHost.linkAt "/srv" = .ok (.dir mixedTree) :=
    @Host.linkAt_names mixedHost ["srv"] mixedTree rfl (by decide) (by decide) (by decide) (by decide)
  have proper : Entry.ProperIn mixedTree := by
    simp only [mixedTree, Entry.ProperIn, Entry.Proper, Entry.text]
    decide
  have read := @Host.read_eq_below mixedHost "/srv" _ mixedTree ["list.phtml"] placed proper rfl (by decide)
    (by decide)
  rw [show "/srv/list.phtml" = Path.below "/srv" ["list.phtml"] from rfl, Host.readOrEmpty, read]

/-- Of the two echoes on the second line the bare one is reported. -/
theorem run_judges_each_echo_mixed :
    (2, mixedLine.text) ∈ numbered (linesOf (mixedHost.readOrEmpty "/srv/list.phtml").toList) ∧
    outputExpressions mixedLine.text = ["$block->escapeHtml($a)".toList, "$block->getName()".toList] ∧
    ∃ found, rule.run mixedHost mixedFiles {} = .ok ({}, found) ∧
      found.filter (fun o => o.file = "/srv/list.phtml" ∧ o.startLine = (2 : Int)) =
        [occurrenceAt "/srv/list.phtml" 2 .warning "unescaped output of $block->getName()"] := by
  have isLine : (2, mixedLine.text) ∈ numbered (linesOf (mixedHost.readOrEmpty "/srv/list.phtml").toList) := by
    rw [readOrEmpty_mixed]
    decide +kernel
  have listed : (mixedFiles.files FileType.phtml).count "/srv/list.phtml" = 1 := by decide +kernel
  have safe : ¬IsSuspect escapedEcho.inner := by decide +kernel
  have suspect : IsSuspect bareEcho.inner := by decide +kernel
  have shown : printed bareEcho.inner = "$block->getName()".toList := by decide +kernel
  have shownEscaped : printed escapedEcho.inner = "$block->escapeHtml($a)".toList := by decide +kernel
  have reported : mixedLine.occurrences "/srv/list.phtml" 2 =
      [occurrenceAt "/srv/list.phtml" 2 .warning "unescaped output of $block->getName()"] := by
    simp only [EchoLine.occurrences, mixedLine, List.filter_cons, safe, suspect, decide_true, decide_false,
      Bool.false_eq_true, if_true, if_false, List.filter_nil, List.map_cons, List.map_nil, shown,
      String.ofList_toList]
    rfl
  obtain ⟨expressions, _, reports⟩ := run_judges_each_echo mixedHost mixedFiles {} mixedLine
  obtain ⟨found, run, onLine⟩ := reports "/srv/list.phtml" 2 isLine
  rw [listed, reported] at onLine
  refine ⟨isLine, ?_, found, run, onLine⟩
  rw [expressions, show mixedLine.echoes = [escapedEcho, bareEcho] from rfl, List.map_cons, List.map_singleton,
    shown, shownEscaped]

end ShopLint.TemplateOutput
