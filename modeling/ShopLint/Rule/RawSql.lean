import ShopLint.Module
import ShopLint.Rule.Basic

/-!
SQL written by hand outside setup scripts.
-/

namespace ShopLint.RawSql

def isQuote (c : Char) : Bool := c = '"' || c = '\''

/-- The blanks after an opening quote are passed over. -/
def opened? (text : List Char) : Option (List Char) :=
  (Chars.afterOne? isQuote text).map Php.skipSpaces

def keyword? (word : String) (text : List Char) : Option (List Char) := Php.foldedWord? word.toList text

/-- `FROM` between two blanks. -/
def fromClause? (text : List Char) : Option (List Char) := do
  Chars.afterOne? isSpace (← keyword? "from" (← Chars.afterOne? isSpace text))

/-- At least one character, then `FROM`. -/
def selectList (text : List Char) : Bool :=
  match text with
  | [] => false
  | _ :: rest => Scan.occurs (fun _ text => fromClause? text) rest

def select? (text : List Char) : Option Unit := do
  let rest ← Chars.afterOne? isSpace (← keyword? "select" (← opened? text))
  if selectList rest then some () else none

def insert? (text : List Char) : Option Unit := do
  let rest ← keyword? "into" (← Php.spaces? (← keyword? "insert" (← opened? text)))
  let _ ← Chars.afterOne? isSpace rest

def update? (text : List Char) : Option Unit := do
  let rest ← Php.spaces? (← keyword? "update" (← opened? text))
  let (_, rest) ← Chars.span1? (fun c => !isSpace c) rest
  let _ ← Chars.afterOne? isSpace (← keyword? "set" (← Php.spaces? rest))

def delete? (text : List Char) : Option Unit := do
  let rest ← keyword? "from" (← Php.spaces? (← keyword? "delete" (← opened? text)))
  let _ ← Chars.afterOne? isSpace rest

def query? (text : List Char) : Option Unit := (Php.word? "->query(" text).map fun _ => ()

/-- The line holds a statement or runs one. -/
def hasRawSql (line : List Char) : Bool :=
  [select?, insert?, update?, delete?, query?].any fun read => Scan.occurs (fun _ text => read text) line

def inspectFile (src : SourceFile) : List Occurrence :=
  let place :=
    match Module.nameOf? src.path with
    | some name => "module " ++ name
    | none => "this file"
  (numbersFrom 1 hasRawSql src.lines).map fun line =>
    occurrenceAt src.path line .warning
      s!"raw SQL in {place}; use the resource model select builder or a repository"

def find (host : Host) (files : Classification) : List Occurrence :=
  let paths := (files.files FileType.php).filter fun path => !Module.isSetupPath path
  (loadAll host paths).flatMap inspectFile

def rule : Rule where
  id := "rawSqlQuery"
  target := FileType.php
  name := "Raw SQL query"
  shortDescription := "raw SQL outside setup scripts"
  longDescription := "Raw SQL bypasses repositories, table prefixes and indexers and is easy to get wrong. " ++
    "Use the select builder of a resource model or a repository."
  run := Rule.simple find

end ShopLint.RawSql
