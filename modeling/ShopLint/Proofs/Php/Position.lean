import ShopLint.Php.Constructor
import ShopLint.Proofs.Text.Lines
import ShopLint.Proofs.Text.Scan

/-!
Lines of what is read in source code. A reader returns a final part of its input, so what it found
stands in the source, and its line is one of the source's lines.
-/

namespace ShopLint

/-- A find stands after the text before it, and was read there. -/
theorem Scan.first_eq_some_read {α : Type} {read : Reader α} {prev : Option Char}
    {text before : List Char} {a : α} (h : first read prev text = some (before, a)) :
    ∃ prev' rest, text = before ++ rest ∧ read prev' rest = some a := by
  obtain ⟨⟨rest, split, found⟩, _⟩ := leftmost_of_first h
  exact ⟨_, rest, split, found⟩

/-- Dividing a text loses none of its other characters. -/
theorem Chars.count_splitOn {sep c : Char} (ne : c ≠ sep) (text : List Char) :
    (splitOn sep text).flatten.count c = text.count c := by
  induction text with
  | nil => rfl
  | cons d ds ih =>
    by_cases h : d = sep
    · simp [splitOn, h, ih, Ne.symm ne]
    · obtain ⟨piece, others, pieces, extended⟩ := splitOn_cons_of_ne h ds
      rw [pieces, List.flatten_cons] at ih
      rw [extended]
      simp only [List.flatten_cons, List.cons_append, List.count_cons, ih]

namespace Php

theorem skipSpaces_suffix (text : List Char) : skipSpaces text <:+ text :=
  List.dropWhile_suffix isSpace

theorem word?_suffix {word : String} {text rest : List Char} (h : word? word text = some rest) :
    rest <:+ text := by
  rw [Chars.after?_eq_some.1 h]
  exact List.suffix_append _ _

theorem spaces?_suffix {text rest : List Char} (h : spaces? text = some rest) : rest <:+ text := by
  obtain ⟨c, cs, rfl, _, rfl⟩ := spaces?_eq_some h
  exact (skipSpaces_suffix cs).trans (List.suffix_cons c cs)

/-- The text of a parameter list starts the text from the list on, which ends the text read. -/
theorem signature?_eq_some {text list rest : List Char} (h : signature? text = some (list, rest)) :
    rest <:+ text ∧ list <+: rest := by
  simp only [signature?, Option.bind_eq_bind, Option.bind_eq_some_iff] at h
  obtain ⟨keyword, isKeyword, blank, isBlank, name, isName, inner, isInner, _, _, eq⟩ := h
  simp only [Option.pure_def, Option.some.injEq, Prod.mk.injEq] at eq
  obtain ⟨rfl, rfl⟩ := eq
  refine ⟨?_, List.takeWhile_prefix _⟩
  exact (word?_suffix isInner).trans <| (skipSpaces_suffix name).trans <|
    (word?_suffix isName).trans <| (spaces?_suffix isBlank).trans (word?_suffix isKeyword)

theorem textBefore_append {source rest : List Char} (h : rest <:+ source) :
    textBefore source rest ++ rest = source := by
  obtain ⟨before, rfl⟩ := h
  simp [textBefore]

/-- A class stands on a line of its file. -/
theorem classOf_line_le {source : List Char} {decl : ClassDecl} (h : classOf source = some decl) :
    decl.line ≤ (linesOf source).length := by
  obtain ⟨found, _, rfl⟩ := Option.map_eq_some_iff.1 h
  apply lineAfter_le
  exact List.take_prefix _ _

theorem param?_line {order : Dict.Listing String} {imports : Dict String} {space : String} {line : Nat}
    {segment : List Char} {p : Param} (h : param? order imports space line segment = some p) :
    p.line = line := by
  simp only [param?, Option.bind_eq_bind] at h
  split at h
  · simp at h
  · obtain ⟨text, _, eq⟩ := Option.bind_eq_some_iff.1 h
    simp only [Option.pure_def, Option.some.injEq] at eq
    rw [← eq]

/-- Parameters stand no further down than the newlines of their stretches lead. -/
theorem paramsFrom_line_le {orders : Nat → Dict.Listing String} {imports : Dict String}
    {space : String} {segments : List (List Char)} {line : Nat} {p : Param}
    (h : p ∈ paramsFrom orders imports space line segments) :
    p.line ≤ line + segments.flatten.count '\n' := by
  induction segments generalizing orders line with
  | nil => simp [paramsFrom] at h
  | cons segment segments ih =>
    have lead := (List.takeWhile_sublist (l := segment) isLead).count_le '\n'
    have later (mem : p ∈ paramsFrom (fun n => orders (n + 1)) imports space
        (line + segment.count '\n') segments) : p.line ≤ line + (segment :: segments).flatten.count '\n' := by
      have := ih mem
      rw [List.flatten_cons, List.count_append]
      omega
    simp only [paramsFrom] at h
    split at h
    next q found =>
      rcases List.mem_cons.1 h with rfl | mem
      · rw [param?_line found, List.flatten_cons, List.count_append]
        omega
      · exact later mem
    next => exact later h

/-- A constructor's parameters stand on lines of its file. -/
theorem constructorOf_line_le {orders : Nat → Dict.Listing String} {source : List Char}
    {ctor : Constructor} (h : constructorOf orders source = some ctor) {p : Param} (mem : p ∈ ctor.params) :
    p.line ≤ (linesOf source).length := by
  obtain ⟨⟨before, list, rest⟩, found, rfl⟩ := Option.map_eq_some_iff.1 h
  obtain ⟨_, tail, split, read⟩ := Scan.first_eq_some_read found
  obtain ⟨ends, starts⟩ := signature?_eq_some read
  have inSource : rest <:+ source := ends.trans (split ▸ List.suffix_append before tail)
  have bound := paramsFrom_line_le mem
  rw [Chars.count_splitOn (by decide)] at bound
  have parts : (textBefore source rest).count '\n' + rest.count '\n' = source.count '\n' := by
    rw [← List.count_append, textBefore_append inSource]
  have inner := starts.sublist.count_le '\n'
  simp only [lineAfter] at bound
  rw [length_linesOf]
  omega

end Php

end ShopLint
