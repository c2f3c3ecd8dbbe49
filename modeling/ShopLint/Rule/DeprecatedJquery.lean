import ShopLint.Php.Lexeme
import ShopLint.Rule.Basic

/-!
Calls that jQuery 3 no longer has.
-/

namespace ShopLint.DeprecatedJquery

/-- A call that was removed, how it is recognised, and what takes its place. -/
structure Removed where
  api : String
  replacement : String
  found : Scan.Reader Unit

/-- The given text, then blanks, then a closing parenthesis. -/
def emptyCall (head : String) : Scan.Reader Unit := fun _ text => do
  let _ ← Php.word? ")" (Php.skipSpaces (← Php.word? head text))

def literal (text : String) : Scan.Reader Unit := fun _ rest => (Php.word? text rest).map fun _ => ()

/-- The next character, if any, does not continue a word. -/
def wordEnds : List Char → Bool
  | [] => true
  | c :: _ => !isWord c

/-- `jQuery.browser` or `$.browser` as a whole word. -/
def browser : Scan.Reader Unit := fun _ text =>
  match ["jQuery.browser", "$.browser"].findSome? fun head => Php.word? head text with
  | some rest => if wordEnds rest then some () else none
  | none => none

def removed : List Removed :=
  [⟨".size()", ".length", emptyCall ".size("⟩,
    ⟨".andSelf()", ".addBack()", emptyCall ".andSelf("⟩,
    ⟨"jQuery.browser", "feature detection", browser⟩,
    ⟨".live()", ".on()", literal ".live("⟩,
    ⟨".die()", ".off()", literal ".die("⟩]

def inspectFile (src : SourceFile) : List Occurrence :=
  (numbered src.lines).flatMap fun (line, text) =>
    (removed.filter fun r => Scan.occurs r.found text).map fun r =>
      occurrenceAt src.path line .warning s!"{r.api} was removed in jQuery 3; use {r.replacement}"

def find (host : Host) (files : Classification) : List Occurrence :=
  let paths := (files.files FileType.js).filter fun path => !Text.endsWith path ".min.js"
  (loadAll host paths).flatMap inspectFile

def rule : Rule where
  id := "jsDeprecatedJquery"
  target := FileType.js
  name := "Deprecated jQuery API"
  shortDescription := "jQuery API removed in jQuery 3"
  longDescription := "These jQuery APIs were removed in jQuery 3 and fail at runtime on current Magento releases."
  run := Rule.simple find

end ShopLint.DeprecatedJquery
