import ShopLint.Proofs.Php.Function
import ShopLint.Proofs.Text.Lines
import ShopLint.Rule.AroundPlugin

/-!
The rule about around plugins never fails. A line on which it sees an around method declares a
function in the sense of the brace counter too, so the counter always finds the block it is asked for.
-/

namespace ShopLint

/-- A reader that accepts wherever another does occurs wherever the other does. -/
theorem Scan.occurs_of_imp {α β : Type} {read : Reader α} {other : Reader β}
    (accepts : ∀ prev text, (read prev text).isSome → (other prev text).isSome)
    {prev : Option Char} {text : List Char} (h : (first read prev text).isSome) :
    (first other prev text).isSome := by
  induction text generalizing prev with
  | nil =>
    simp only [first, Option.isSome_map] at h ⊢
    exact accepts prev [] h
  | cons c cs ih =>
    simp only [first] at h ⊢
    cases here : other prev (c :: cs) with
    | some a => rfl
    | none =>
      have notHere : read prev (c :: cs) = none := by
        rw [← Option.not_isSome_iff_eq_none]
        intro some
        have := accepts prev (c :: cs) some
        simp [here] at this
      simp only [notHere, Option.isSome_map] at h ⊢
      exact ih h

namespace AroundPlugin

theorem isWord_of_upper {c : Char} (h : ('A' ≤ c && c ≤ 'Z') = true) : isWord c := by
  simp [isWord, isNameStart, h]

/-- The name of an around method is an identifier, and what follows it is the same. -/
theorem identifier?_around {text rest : List Char} {c : Char}
    (lead : text = "around".toList ++ c :: rest) (upper : ('A' ≤ c && c ≤ 'Z') = true) :
    ∃ name, Php.identifier? text = some (name, rest.dropWhile isWord) := by
  have spelled : text = 'a' :: 'r' :: 'o' :: 'u' :: 'n' :: 'd' :: c :: rest := lead
  have word := isWord_of_upper upper
  refine ⟨'a' :: ('r' :: 'o' :: 'u' :: 'n' :: 'd' :: c :: rest).takeWhile isWord, ?_⟩
  rw [spelled, Php.identifier?, if_pos (by decide)]
  rw [List.dropWhile_cons_of_pos (by decide), List.dropWhile_cons_of_pos (by decide),
    List.dropWhile_cons_of_pos (by decide), List.dropWhile_cons_of_pos (by decide),
    List.dropWhile_cons_of_pos (by decide), List.dropWhile_cons_of_pos word]

theorem functionHead?_of_aroundHead? {text method : List Char} (h : aroundHead? text = some method) :
    (Php.functionHead? text).isSome := by
  simp only [aroundHead?, Option.bind_eq_bind, Option.bind_eq_some_iff] at h
  obtain ⟨keyword, isKeyword, blank, isBlank, around, isAround, upper, isUpper, paren, isParen, _⟩ := h
  have lead := Chars.after?_eq_some.1 isAround
  cases around with
  | nil => simp [Chars.afterOne?] at isUpper
  | cons c rest =>
    simp only [Chars.afterOne?] at isUpper
    split at isUpper
    next capital =>
      simp only [Option.some.injEq] at isUpper
      subst isUpper
      obtain ⟨name, isName⟩ := identifier?_around lead capital
      simp only [Php.functionHead?, isKeyword, isBlank, isName, isParen, Option.bind_eq_bind,
        Option.bind_some]
      rfl
    next => simp at isUpper

/-- Every line with an around method declares a function. -/
theorem declaresFunction_of_aroundMethod? {line method : List Char}
    (h : aroundMethod? line = some method) : Php.declaresFunction line := by
  have found : (aroundMethod? line).isSome := by rw [h]; rfl
  simp only [aroundMethod?, Option.isSome_map] at found
  refine Scan.occurs_of_imp (fun prev text some => ?_) found
  simp only [Php.functionDecl?]
  split at some
  next start =>
    rw [if_pos start]
    obtain ⟨method, head⟩ := Option.isSome_iff_exists.1 some
    exact functionHead?_of_aroundHead? head
  next => simp at some

/-- The block of an around method starts on the line on which the method was seen. -/
theorem functionAt_of_aroundMethod? {lines : List (List Char)} {n : Nat} {line method : List Char}
    (numberedLine : (n, line) ∈ numbered lines) (h : aroundMethod? line = some method) :
    ∃ block, Php.functionAt lines n = .ok block ∧ block.startLine = n ∧
      n ≤ block.endLine ∧ block.endLine ≤ lines.length := by
  obtain ⟨before, after, rfl, rfl⟩ := mem_numbered numberedLine
  have bounds := Php.blockFrom_bounds (before.length + 1) line after
  refine ⟨_, Php.functionAt_of_declares (declaresFunction_of_aroundMethod? h) before after, rfl,
    bounds.1, ?_⟩
  have upper := bounds.2
  simp only [List.length_append, List.length_cons]
  omega

/-- The occurrence for a numbered line, if it declares an around method that never goes on. -/
def ofLine (src : SourceFile) (p : Nat × List Char) : Option Occurrence :=
  (aroundMethod? p.2).bind fun method => ((inspect src p.1 method).toOption).join

/-- A method that is seen is inspected without failing. -/
theorem inspect_ok {src : SourceFile} {n : Nat} {line method : List Char}
    (numberedLine : (n, line) ∈ numbered src.lines) (h : aroundMethod? line = some method) :
    ∃ result, inspect src n method = .ok result := by
  obtain ⟨block, at_, _⟩ := functionAt_of_aroundMethod? numberedLine h
  simp only [inspect, at_]
  split
  · exact ⟨_, rfl⟩
  · exact ⟨_, rfl⟩

theorem filterMapM_ok {α β ε : Type} {f : α → Except ε (Option β)} {g : α → Option β} {l : List α}
    (h : ∀ x ∈ l, f x = .ok (g x)) : l.filterMapM f = .ok (l.filterMap g) := by
  induction l with
  | nil => rfl
  | cons x xs ih =>
    have rest := ih fun y mem => h y (List.mem_cons_of_mem _ mem)
    rw [List.filterMapM_cons, h x List.mem_cons_self, rest]
    cases eq : g x with
    | none => simp [eq, bind, Except.bind]
    | some b => simp [eq, bind, Except.bind, pure, Except.pure]

theorem mapM_ok {α β ε : Type} {f : α → Except ε β} {g : α → β} {l : List α}
    (h : ∀ x ∈ l, f x = .ok (g x)) : l.mapM f = .ok (l.map g) := by
  induction l with
  | nil => rfl
  | cons x xs ih =>
    have rest := ih fun y mem => h y (List.mem_cons_of_mem _ mem)
    rw [List.mapM_cons, h x List.mem_cons_self, rest]
    rfl

theorem inspectFile_ok (src : SourceFile) :
    inspectFile src = .ok ((numbered src.lines).filterMap (ofLine src)) := by
  unfold inspectFile
  apply filterMapM_ok
  rintro ⟨n, line⟩ mem
  simp only [ofLine]
  cases seen : aroundMethod? line with
  | none => rfl
  | some method =>
    obtain ⟨result, ok⟩ := inspect_ok mem seen
    simp [ok, Except.toOption]

/-- The files of the rule. -/
def sources (host : Host) (files : Classification) : List SourceFile :=
  loadAll host ((files.files FileType.php).filter fun path => Text.contains path "/Plugin/")

/-- The rule goes through all files and lines without failing. -/
theorem find_ok (host : Host) (files : Classification) :
    find host files =
      .ok ((sources host files).flatMap fun src => (numbered src.lines).filterMap (ofLine src)) := by
  have found := mapM_ok fun (src : SourceFile) (_ : src ∈ sources host files) => inspectFile_ok src
  simp only [sources] at found
  simp only [find, found, sources, List.flatMap]
  rfl

end AroundPlugin

end ShopLint
