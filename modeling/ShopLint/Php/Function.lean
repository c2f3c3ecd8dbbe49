import ShopLint.Php.Lexeme
import ShopLint.Text.Line
import ShopLint.Text.Scan

/-!
Functions located by counting braces. Braces in strings and comments count as well.
-/

namespace ShopLint.Php

/-- A word may start here: at the start of the line, or after a blank, a semicolon or a brace. -/
def statementStart (prev : Option Char) : Bool :=
  match prev with
  | none => true
  | some c => isSpace c || c = ';' || c = '\x7b' || c = '\x7d'

/-- `function name (`, with an optional ampersand before the name: the name. -/
def functionHead? (text : List Char) : Option (List Char) := do
  let text ← spaces? (← word? "function" text)
  let (name, text) ← identifier? (skipSpaces (skipChar '&' text))
  let _ ← word? "(" (skipSpaces text)
  return name

def functionDecl? : Scan.Reader (List Char) := fun prev text =>
  if statementStart prev then functionHead? text else none

/-- The line declares a function. -/
def declaresFunction (line : List Char) : Bool := Scan.occurs functionDecl? line

inductive BoundaryReason
  | outOfRange
  | noDeclaration
  deriving DecidableEq, Repr

/-- No function could be located from the given line on. -/
structure BoundaryError where
  line : Int
  reason : BoundaryReason
  deriving DecidableEq, Repr

def BoundaryReason.text : BoundaryReason → String
  | .outOfRange => "line out of range"
  | .noDeclaration => "no function declaration found"

def BoundaryError.message (e : BoundaryError) : String :=
  s!"no function boundary found from line {e.line}: {e.reason.text}"

/-- The lines `startLine` to `endLine` of a function. -/
structure FunctionBlock where
  startLine : Nat
  endLine : Nat
  lines : List (List Char)
  deriving DecidableEq, Repr

def joinLines (lines : List (List Char)) : List Char := List.intercalate ['\n'] lines

def FunctionBlock.text (block : FunctionBlock) : List Char := joinLines block.lines

/-- The lines up to the one on which the braces are balanced again, or all of them. `balance` and
`opened` tell of the lines before. -/
def takeBlock (balance : Int) (opened : Bool) : List (List Char) → List (List Char)
  | [] => []
  | line :: lines =>
    let opens := line.count '\x7b'
    let closes := line.count '\x7d'
    let balance := balance + opens - closes
    let opened := opened || 0 < opens
    if opened && 0 < closes && balance ≤ 0 then [line] else line :: takeBlock balance opened lines

/-- The first function declared at or after `startLine`. One that is still open at the end of the
input goes on to the end. -/
def functionAt (lines : List (List Char)) (startLine : Int) : Except BoundaryError FunctionBlock :=
  if startLine < 1 || (lines.length : Int) < startLine then .error ⟨startLine, .outOfRange⟩
  else
    let skipped := startLine.toNat - 1
    let before := (lines.drop skipped).takeWhile fun line => !declaresFunction line
    match (lines.drop skipped).drop before.length with
    | [] => .error ⟨startLine, .noDeclaration⟩
    | found =>
      let start := skipped + before.length + 1
      let block := takeBlock 0 false found
      .ok { startLine := start, endLine := start + block.length - 1, lines := block }

/-- The block ended on its balancing brace and not at the end of the input. -/
def FunctionBlock.closed (block : FunctionBlock) : Bool :=
  0 < block.text.count '\x7b' && block.text.count '\x7b' == block.text.count '\x7d'

/-- What stands between the first `{` and the last `}` of a single line. -/
def oneLineBody (line : List Char) : List Char :=
  match Chars.cut ['\x7b'] line with
  | none => []
  | some (_, rest) =>
    match Chars.cutLast ['\x7d'] rest with
    | some (body, _) => Chars.trimWhile isBlank body
    | none => []

/-- The last line of a closed body: gone if it starts with the closing brace, else cut before it. -/
def dropClosing (body : List (List Char)) : List (List Char) :=
  match body.getLast? with
  | none => []
  | some last =>
    if (Chars.trimWhile isBlank last).head? = some '\x7d' then body.dropLast
    else
      match Chars.cutLast ['\x7d'] last with
      | some (before, _) =>
        body.dropLast ++ [Chars.dropRightWhile (fun c => c = ' ' || c = '\t') before]
      | none => body

/-- The body of a function without its declaration line and outer braces. -/
def FunctionBlock.body (block : FunctionBlock) : List Char :=
  match block.lines with
  | [] => []
  | [line] => oneLineBody line
  | _ :: second :: others =>
    let body := if Chars.trimWhile isBlank second = ['\x7b'] then others else second :: others
    joinLines (if block.closed then dropClosing body else body)

end ShopLint.Php
