import ShopLint.Php.Lexeme
import ShopLint.Rule.Basic
import ShopLint.Text.Quoted
import ShopLint.Xml.Document

/-!
Layout blocks that keep a whole page out of the cache. The layout `default.xml` is part of every
page, so there it is an error.
-/

namespace ShopLint.LayoutCache

/-- `cacheable="false"`, with either kind of quotes and blanks around the equals sign. -/
def disabled? (text : List Char) : Option (List Char) := do
  let text ← Php.word? "=" (Php.skipSpaces (← Php.word? "cacheable" text))
  let text ← Chars.afterOne? (fun c => c = '"' || c = '\'') (Php.skipSpaces text)
  Chars.afterOne? (fun c => c = '"' || c = '\'') (← Php.word? "false" text)

/-- The numbers of the lines on which caching is disabled. -/
def disabledLines (src : SourceFile) : List Nat :=
  numbersFrom 1 (Scan.occurs fun _ text => disabled? text) src.lines

/-- The elements, level by level, go with those lines one by one; one that is left without a line is
reported on the first. -/
def inspectFile (src : SourceFile) : List Occurrence :=
  match Xml.parse? src.text with
  | none => []
  | some doc =>
    let lines := disabledLines src
    let file := Path.base src.path
    let severity := if file = "default.xml" then Severity.error else .warning
    let elements := Xml.elementsWith doc "cacheable" "false"
    ((List.range elements.length).zip elements).map fun (i, e) =>
      let name := e.attrD "name" e.name.key
      let handle := Text.dropEnd ".xml" file
      occurrenceAt src.path (lines.getD i 1) severity
        s!"{e.name.key} {Text.quote name} disables full page cache for handle {handle}"

def find (host : Host) (files : Classification) : List Occurrence :=
  let paths := (files.files FileType.xml).filter fun path => Text.contains path "/layout/"
  (loadDocuments host paths).flatMap inspectFile

def rule : Rule where
  id := "layoutCacheableFalse"
  target := FileType.xml
  name := "Non cacheable layout block"
  shortDescription := "layout block with cacheable=\"false\""
  longDescription := "A single block with cacheable=\"false\" makes the whole page uncacheable. " ++
    "Load customer specific content through private content sections or AJAX."
  run := Rule.simple find

end ShopLint.LayoutCache
