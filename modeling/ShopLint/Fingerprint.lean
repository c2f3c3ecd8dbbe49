import ShopLint.Digest
import ShopLint.Host
import ShopLint.Text.Line

/-!
Fingerprints of code: a digest of some lines that does not change when they are indented otherwise
or move to other places of the file.
-/

namespace ShopLint.Fingerprint

/-- The lines of a text, a carriage return before a newline belonging to the line ending. -/
def lines (content : List Char) : List (List Char) :=
  linesOf (Chars.replaceAll ['\r', '\n'] ['\n'] content)

/-- Lines `line` to `endLine`, as far as there are any, each trimmed. -/
def snippet (content : List Char) (line endLine : Int) : Option (List (List Char)) :=
  let all := lines content
  if line < 1 || (all.length : Int) < line then none
  else
    let start := line.toNat - 1
    let count := (max line endLine - line).toNat + 1
    some (((all.drop start).take count).map (Chars.trimWhile isBlank))

/-- The digest of lines `line` to `endLine`, empty when the first is not in the text. -/
def hash (content : List Char) (line endLine : Int) : String :=
  match snippet content line endLine with
  | some picked => Digest.sha256 (String.ofList (List.intercalate ['\n'] picked))
  | none => ""

/-- The digest of lines of a file, empty when they cannot be read. -/
def ofFile (host : Host) (path : String) (line endLine : Int) : String :=
  if Text.trim path = "" || line ≤ 0 then ""
  else
    match host.read path with
    | .ok content => hash content.toList line endLine
    | .error _ => ""

end ShopLint.Fingerprint
