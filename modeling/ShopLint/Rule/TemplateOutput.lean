import ShopLint.Php.Lexeme
import ShopLint.Rule.Basic

/-!
Block data printed in templates without an escaper.
-/

namespace ShopLint.TemplateOutput

/-- The end of a short echo: an optional semicolon with blanks around it, then the closing mark. -/
def closing? (text : List Char) : Option (List Char) :=
  Php.word? "?>" (Php.skipSpaces (Php.skipChar ';' (Php.skipSpaces text)))

/-- The shortest text up to such an end, and what follows the end. -/
def upToClosing? : List Char → Option (List Char × List Char)
  | [] => none
  | c :: cs =>
    match closing? (c :: cs) with
    | some rest => some ([], rest)
    | none => if c = '\n' then none else (upToClosing? cs).map fun p => (c :: p.1, p.2)

/-- `<?= expression ?>`. -/
def shortEcho? (text : List Char) : Option (List Char × List Char) := do
  upToClosing? (Php.skipSpaces (← Php.word? "<?=" text))

def isEchoed (c : Char) : Bool := c ≠ ';' && c ≠ '?'

/-- `echo expression`, where a word starts; the expression goes on to a semicolon or question mark.
Of two or more blanks the last can stand for it. -/
def echo? : Scan.Reader (List Char × List Char) := fun prev text =>
  if (prev.map isWord).getD false then none
  else do
    let rest ← Php.word? "echo" text
    let blanks := rest.takeWhile isSpace
    let rest := rest.dropWhile isSpace
    match rest.takeWhile isEchoed with
    | [] => if 2 ≤ blanks.length then some ([' '], rest) else none
    | expression => if blanks.isEmpty then none else some (expression, rest.dropWhile isEchoed)

/-- The expressions that a line prints: first the short echoes, then the others. -/
def outputExpressions (line : List Char) : List (List Char) :=
  (Scan.all (fun _ text => shortEcho? text) line ++ Scan.all echo? line).map (Chars.trimWhile isBlank)

/-- Marks of output that is HTML by contract. -/
def safeOutput : List String :=
  ["escape", "@noEscape", "getChildHtml", "getBlockHtml", "toHtml", "getLayout()"]

def isUnescaped (expression : List Char) : Bool :=
  Chars.contains "$block->".toList expression &&
    !safeOutput.any fun mark => Chars.contains mark.toList expression

def inspectFile (src : SourceFile) : List Occurrence :=
  (numbered src.lines).flatMap fun (line, text) =>
    ((outputExpressions text).filter isUnescaped).map fun expression =>
      occurrenceAt src.path line .warning s!"unescaped output of {String.ofList expression}"

def find (host : Host) (files : Classification) : List Occurrence :=
  (loadAll host (files.files FileType.phtml)).flatMap inspectFile

def rule : Rule where
  id := "phtmlUnescapedOutput"
  target := FileType.phtml
  name := "Unescaped template output"
  shortDescription := "block data echoed without escaping"
  longDescription := "Template output must go through $escaper->escapeHtml(), escapeHtmlAttr(), escapeUrl() " ++
    "or escapeJs(). Unescaped output is an XSS vector."
  run := Rule.simple find

end ShopLint.TemplateOutput
