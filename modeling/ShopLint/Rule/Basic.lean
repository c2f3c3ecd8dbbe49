import ShopLint.ClassIndex
import ShopLint.Collection.Classification
import ShopLint.Finding
import ShopLint.Php.Function

/-!
Rules: what they are called and what they look for. A rule sees the machine, all collected files and
the class index that the rules of one scan share.
-/

namespace ShopLint

/-- A rule could not be applied to a file. -/
structure RuleFailure where
  message : String
  deriving DecidableEq, Repr

/-- One rule. `target` is the file type without which it is not run. -/
structure Rule where
  id : String
  target : String
  name : String := ""
  shortDescription : String := ""
  longDescription : String := ""
  run : Host → Classification → ClassIndex → Except RuleFailure (ClassIndex × List Occurrence)

/-- A source file with something in it. -/
structure SourceFile where
  path : String
  text : List Char

/-- The file's lines. -/
def SourceFile.lines (src : SourceFile) : List (List Char) := linesOf src.text

/-- The files that can be read, with what `read` makes of them, and are not empty. -/
def loadWith (read : String → Except FileError String) (paths : List String) : List SourceFile :=
  paths.filterMap fun path =>
    match read path with
    | .ok content => if content = "" then none else some ⟨path, content.toList⟩
    | .error _ => none

def loadAll (host : Host) : List String → List SourceFile := loadWith host.read

/-- The files that are to hold a document. -/
def loadDocuments (host : Host) : List String → List SourceFile := loadWith host.readDocument

/-- What is found in each file, given at which turn the rule comes to it. -/
def inspectEach (inspect : Nat → SourceFile → List Occurrence) (sources : List SourceFile) :
    List Occurrence :=
  (sources.mapIdx inspect).flatten

/-- An occurrence on one line; lines start at 1. -/
def occurrenceAt (file : String) (line : Nat) (severity : Severity) (message : String) : Occurrence :=
  { file := file, startLine := max 1 line, endLine := max 1 line, message := message,
    severity := severity }

/-- The lines with their numbers, counted from 1. -/
def numbered (lines : List (List Char)) : List (Nat × List Char) := (List.range' 1 lines.length).zip lines

/-- A rule that neither fails nor uses the class index. -/
def Rule.simple (find : Host → Classification → List Occurrence) :
    Host → Classification → ClassIndex → Except RuleFailure (ClassIndex × List Occurrence) :=
  fun host files index => .ok (index, find host files)

end ShopLint
