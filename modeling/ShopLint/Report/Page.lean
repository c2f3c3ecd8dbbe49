import ShopLint.Path
import ShopLint.Report.Basic
import ShopLint.Report.Format
import ShopLint.Report.Hint
import ShopLint.Report.Style
import ShopLint.Settings.Basic

/-!
Reports as a page to be read in a browser. A page is first gathered from the report, then laid out as
a list of pieces: markup, which is the same for every report, and values, which are escaped. So no
value can add markup of its own.
-/

namespace ShopLint

namespace Page

/-- A row of a rule's table. -/
structure Row where
  file : String
  startLine : Int
  endLine : Int
  message : String
  severity : Severity
  hint : String

/-- A rule with at least one row. -/
structure Section where
  id : String
  name : String
  shortDescription : String
  longDescription : String
  counts : SeverityCounts
  rows : List Row

/-- The severity that a section is marked with. -/
def Section.badge (s : Section) : Severity := s.counts.highest

end Page

structure Page where
  toolName : String
  toolVersion : String
  root : String
  scanId : String
  branch : String
  commit : String
  generatedAt : Instant
  sections : List Page.Section

namespace Page

/-- An occurrence without severity is shown as a warning. -/
def Row.ofOccurrence (o : Occurrence) : Row :=
  { file := o.file, startLine := o.startLine, endLine := o.endLine, message := o.message
    severity := o.severity.orElse .warning, hint := hintText o.metadata }

/-- An occurrence without severity is counted as a note. -/
def Section.ofFinding (f : Finding) : Section :=
  { id := f.ruleId, name := f.name, shortDescription := f.shortDescription
    longDescription := f.longDescription, counts := countBySeverity f.occurrences .note
    rows := f.occurrences.map Row.ofOccurrence }

def ofReport (options : RenderOptions) (report : Report) : Page :=
  { toolName := Settings.orDefault options.toolName Settings.defaultToolName
    toolVersion := Settings.orDefault options.toolVersion report.info.toolVersion
    root := Settings.orDefault options.root report.info.path
    scanId := report.info.scanId, branch := report.info.branch, commit := report.info.commit
    generatedAt := report.info.generatedAt
    sections := report.occurring.map Section.ofFinding }

/-- The counts over all sections. -/
def totals (p : Page) : SeverityCounts := (p.sections.map Section.counts).foldl (· + ·) {}

/-- A character as it stands in text and in quoted attributes. -/
def escapeChar (c : Char) : List Char :=
  if c = '&' then "&amp;".toList
  else if c = '<' then "&lt;".toList
  else if c = '>' then "&gt;".toList
  else if c = '"' then "&#34;".toList
  else if c = '\'' then "&#39;".toList
  else if c = '+' then "&#43;".toList
  else if c = '\x00' then ['\uFFFD']
  else [c]

def escape (text : String) : List Char := text.toList.flatMap escapeChar

inductive Piece
  | markup (text : String)
  | value (text : String)
  deriving DecidableEq, Repr

def Piece.text : Piece → List Char
  | markup text => text.toList
  | value text => escape text

/-- A value between two pieces of markup, or nothing at all when it is empty. -/
def optional (before value after : String) : List Piece :=
  if value = "" then [] else [.markup before, .value value, .markup after]

/-- The first line, and the last one if it is another. -/
def lineRange (first last : Int) : String := if first < last then s!"{first}-{last}" else s!"{first}"

def logoUrl : String := "https://raw.githubusercontent.com/scan-io-git/magelint/main/docs/assets/logo.svg"

def head (p : Page) : List Piece := [
  .markup "<!DOCTYPE html>\n<html lang=\"en\">\n<head>\n<meta charset=\"utf-8\">\n",
  .markup "<meta name=\"viewport\" content=\"width=device-width, initial-scale=1\">\n<title>",
  .value p.toolName,
  .markup " report</title>\n<style>\n", .markup styleSheet, .markup "</style>\n</head>\n<body>\n"]

def header (p : Page) : List Piece :=
  [.markup ("<header>\n  <img src=\"" ++ logoUrl ++ "\" alt=\""), .value p.toolName,
    .markup "\">\n  <div>\n    <strong>", .value p.toolName, .markup "</strong>"] ++
  optional " " p.toolVersion "" ++
  [.markup "\n    <div class=\"meta\">\n      ", .value p.root, .markup " &middot; ",
    .value p.generatedAt.spoken] ++
  optional " &middot; " p.branch "" ++ optional " @ " p.commit "" ++ optional " &middot; scan " p.scanId "" ++
  [.markup "\n    </div>\n  </div>\n</header>\n"]

/-- The counts, each on the button that filters by it. -/
def summary (counts : SeverityCounts) : List Piece := [
  .markup "\n  <div class=\"summary\">\n    <button class=\"active\" data-filter=\"all\">All ",
  .markup "<span class=\"badge note\">", .value (toString counts.total), .markup "</span></button>\n",
  .markup "    <button data-filter=\"error\">Errors <span class=\"badge error\">",
  .value (toString counts.errors), .markup "</span></button>\n",
  .markup "    <button data-filter=\"warning\">Warnings <span class=\"badge warning\">",
  .value (toString counts.warnings), .markup "</span></button>\n",
  .markup "    <button data-filter=\"note\">Notes <span class=\"badge note\">",
  .value (toString counts.notes), .markup "</span></button>\n  </div>\n  \n  "]

/-- A row of the table, numbered from one. -/
def Row.pieces (root : String) (number : Nat) (r : Row) : List Piece :=
  [.markup "\n        <tr class=\"occurrence\" data-severity=\"", .value r.severity.name,
    .markup "\">\n          <td>", .value (toString number),
    .markup "</td>\n          <td><span class=\"badge ", .value r.severity.name, .markup "\">",
    .value r.severity.name, .markup "</span></td>\n          <td class=\"file\" title=\"", .value r.file,
    .markup "\">", .value (Path.within root r.file), .markup "</td>\n          <td>",
    .value (lineRange r.startLine r.endLine), .markup "</td>\n          <td>", .value r.message] ++
  optional "<pre class=\"hint\">" r.hint "</pre>" ++ [.markup "</td>\n        </tr>\n      "]

def rowPieces (root : String) (number : Nat) : List Row → List Piece
  | [] => []
  | r :: rows => r.pieces root number ++ rowPieces root (number + 1) rows

def Section.pieces (root : String) (s : Section) : List Piece :=
  [.markup "\n  <section class=\"rule\" data-severity=\"", .value s.badge.name,
    .markup "\">\n    <h2>\n      <span class=\"badge ", .value s.badge.name, .markup "\">",
    .value s.badge.name, .markup "</span>\n      ", .value s.name, .markup " <code>", .value s.id,
    .markup "</code>\n      <span class=\"counts\">", .value (toString s.counts.errors),
    .markup " errors, ", .value (toString s.counts.warnings), .markup " warnings, ",
    .value (toString s.counts.notes), .markup " notes</span>\n    </h2>\n    <div class=\"description\">",
    .value s.shortDescription] ++
  optional "<br>" s.longDescription "" ++
  [.markup "</div>\n    <table>\n      <thead><tr><th>#</th><th>Severity</th><th>File</th>",
    .markup "<th>Line</th><th>Message</th></tr></thead>\n      <tbody>\n      "] ++
  rowPieces root 1 s.rows ++
  [.markup "\n      </tbody>\n    </table>\n  </section>\n  "]

def body (p : Page) : List Piece :=
  if p.totals.total = 0 then [.markup "\n  <div class=\"empty\">No issues found.</div>\n"]
  else summary p.totals ++ p.sections.flatMap (Section.pieces p.root) ++ [.markup "\n"]

def pieces (p : Page) : List Piece :=
  p.head ++ p.header ++ [.markup "<main>\n"] ++ p.body ++
  [.markup "\n</main>\n<script>\n", .markup script, .markup "</script>\n</body>\n</html>\n"]

def text (p : Page) : String := String.ofList (p.pieces.flatMap Piece.text)

end Page

end ShopLint
