import ShopLint.Report.Rendering
import Mathlib.Data.List.Forall2

/-!
Markup of report pages. What a page shows is escaped wherever it stands, so the characters that tags
and attributes are made of come from the page's own markup, and that depends on nothing but the shape
of the report: how many rules and rows there are, and which optional texts are given.
-/

namespace ShopLint

namespace Page

/-- The characters that tags and attributes begin and end with. -/
def isMarkupChar (c : Char) : Bool := c = '<' || c = '>' || c = '"' || c = '\''

theorem escapeChar_free (c : Char) : ∀ x ∈ escapeChar c, isMarkupChar x = false := by
  unfold escapeChar
  split
  · simp [isMarkupChar]
  split
  · simp [isMarkupChar]
  next notOpen =>
    split
    · simp [isMarkupChar]
    next notClose =>
      split
      · simp [isMarkupChar]
      next notQuote =>
        split
        · simp [isMarkupChar]
        next notApostrophe =>
          split
          · simp [isMarkupChar]
          split
          · simp [isMarkupChar]
          · intro x mem
            obtain rfl := List.mem_singleton.1 mem
            simp [isMarkupChar, notOpen, notClose, notQuote, notApostrophe]

/-- An escaped text holds none of them. -/
theorem filter_escape (text : String) : (escape text).filter isMarkupChar = [] := by
  rw [List.filter_eq_nil_iff]
  intro x mem
  obtain ⟨c, _, fromChar⟩ := List.mem_flatMap.1 mem
  simp [escapeChar_free c x fromChar]

/-- The texts of markup among some pieces. -/
def markups (pieces : List Piece) : List String :=
  pieces.filterMap fun
    | .markup text => some text
    | .value _ => none

@[simp] theorem markups_nil : markups [] = [] := rfl

@[simp] theorem markups_markup (text : String) (pieces : List Piece) :
    markups (.markup text :: pieces) = text :: markups pieces := rfl

@[simp] theorem markups_value (text : String) (pieces : List Piece) :
    markups (.value text :: pieces) = markups pieces := rfl

@[simp] theorem markups_append (a b : List Piece) : markups (a ++ b) = markups a ++ markups b :=
  List.filterMap_append

/-- The characters of markup in a text are those of the pieces of markup in it. -/
theorem filter_text (pieces : List Piece) :
    (pieces.flatMap Piece.text).filter isMarkupChar =
      ((markups pieces).flatMap String.toList).filter isMarkupChar := by
  induction pieces with
  | nil => rfl
  | cons piece pieces ih =>
    cases piece with
    | markup text => simp [Piece.text, ih]
    | value text => simp [Piece.text, filter_escape, ih]

/-! Pages of one shape -/

/-- Both texts are given, or neither is. -/
def BothGiven (a b : String) : Prop := a = "" ↔ b = ""

instance (a b : String) : Decidable (BothGiven a b) := inferInstanceAs (Decidable (_ ↔ _))

/-- The sections have as many rows, with hints at the same ones, and a long description both or
neither. -/
structure Section.SameShape (s t : Section) : Prop where
  longDescription : BothGiven s.longDescription t.longDescription
  rows : List.Forall₂ (fun a b => BothGiven a.hint b.hint) s.rows t.rows

/-- The pages have the same optional texts, and either nothing to show or sections of one shape. -/
structure SameShape (p q : Page) : Prop where
  toolVersion : BothGiven p.toolVersion q.toolVersion
  branch : BothGiven p.branch q.branch
  commit : BothGiven p.commit q.commit
  scanId : BothGiven p.scanId q.scanId
  empty : p.totals.total = 0 ↔ q.totals.total = 0
  sections : p.totals.total ≠ 0 → List.Forall₂ Section.SameShape p.sections q.sections

theorem markups_optional {a b : String} (h : BothGiven a b) (before after : String) :
    markups (optional before a after) = markups (optional before b after) := by
  by_cases missing : a = ""
  · rw [optional, optional, if_pos missing, if_pos (h.1 missing)]
  · rw [optional, optional, if_neg missing, if_neg fun eq => missing (h.2 eq)]
    rfl

theorem markups_row {a b : Row} (h : BothGiven a.hint b.hint) (root root' : String) (n m : Nat) :
    markups (a.pieces root n) = markups (b.pieces root' m) := by
  simp only [Row.pieces, markups_append, markups_markup, markups_value, markups_nil, markups_optional h]

theorem markups_rowPieces {as bs : List Row} (h : List.Forall₂ (fun a b => BothGiven a.hint b.hint) as bs)
    (root root' : String) (n m : Nat) :
    markups (rowPieces root n as) = markups (rowPieces root' m bs) := by
  induction h generalizing n m with
  | nil => rfl
  | cons first _ ih =>
    simp only [rowPieces, markups_append, markups_row first root root' n m, ih (n + 1) (m + 1)]

theorem Section.SameShape.markups_eq {s t : Section} (h : s.SameShape t) (root root' : String) :
    markups (s.pieces root) = markups (t.pieces root') := by
  simp only [Section.pieces, markups_append, markups_markup, markups_value, markups_nil,
    markups_optional h.longDescription, markups_rowPieces h.rows root root' 1 1]

theorem markups_sections {ss ts : List Section} (h : List.Forall₂ Section.SameShape ss ts)
    (root root' : String) :
    markups (ss.flatMap (Section.pieces root)) = markups (ts.flatMap (Section.pieces root')) := by
  induction h with
  | nil => rfl
  | cons first _ ih =>
    simp only [List.flatMap_cons, markups_append, first.markups_eq root root', ih]

variable {p q : Page}

theorem SameShape.markups_header (h : p.SameShape q) : markups p.header = markups q.header := by
  simp only [header, markups_append, markups_markup, markups_value, markups_nil,
    markups_optional h.toolVersion, markups_optional h.branch, markups_optional h.commit,
    markups_optional h.scanId]

theorem SameShape.markups_body (h : p.SameShape q) : markups p.body = markups q.body := by
  by_cases nothing : p.totals.total = 0
  · rw [body, body, if_pos nothing, if_pos (h.empty.1 nothing)]
  · have something : q.totals.total ≠ 0 := fun eq => nothing (h.empty.2 eq)
    rw [body, body, if_neg nothing, if_neg something]
    simp only [markups_append, markups_sections (h.sections nothing) p.root q.root]
    rfl

/-- Pages of one shape are laid out with the same pieces of markup in the same order. -/
theorem SameShape.markups_pieces (h : p.SameShape q) : markups p.pieces = markups q.pieces := by
  simp only [pieces, markups_append, h.markups_header, h.markups_body]
  rfl

end Page

/-- **No report adds markup to its page.** The characters that tags and attributes begin and end with
are the same, in the same order, on the pages of any two reports of one shape. -/
theorem Report.htmlText_markup_fixed (options options' : RenderOptions) (report report' : Report)
    (shape : (Page.ofReport options report).SameShape (Page.ofReport options' report')) :
    (report.htmlText options).toList.filter Page.isMarkupChar =
      (report'.htmlText options').toList.filter Page.isMarkupChar := by
  have text (p : Page) : p.text.toList.filter Page.isMarkupChar =
      ((Page.markups p.pieces).flatMap String.toList).filter Page.isMarkupChar := by
    rw [Page.text, String.toList_ofList, Page.filter_text]
  rw [htmlText, htmlText, text, text, shape.markups_pieces]

/-- A report of one occurrence in which every text is `mark`. -/
def markedReport (mark : String) : Report :=
  let occurrence : Occurrence := {
    file := mark, message := mark, severity := ⟨mark⟩
    metadata := [("argument", .string mark), ("class", .string mark), ("diFile", .string mark),
      ("proxy", .string mark)] }
  { findings := Dict.ofList [("rule", {
      ruleId := mark, name := mark, shortDescription := mark, longDescription := mark
      listed := some [occurrence, { severity := .note }] })]
    info := { scanId := mark, path := mark, toolVersion := mark, branch := mark, commit := mark } }

theorem Report.htmlText_markup_fixed_markedReport :
    (Page.ofReport {} (markedReport "\"'><script>")).SameShape (Page.ofReport {} (markedReport "a")) ∧
    ((markedReport "\"'><script>").htmlText {}).toList.filter Page.isMarkupChar =
      ((markedReport "a").htmlText {}).toList.filter Page.isMarkupChar := by
  have shape : (Page.ofReport {} (markedReport "\"'><script>")).SameShape
      (Page.ofReport {} (markedReport "a")) := by
    refine ⟨by decide, by decide, by decide, by decide, by decide, fun _ => ?_⟩
    exact .cons ⟨by decide, .cons (by decide) (.cons (by decide) .nil)⟩ .nil
  exact ⟨shape, Report.htmlText_markup_fixed {} {} _ _ shape⟩

end ShopLint
