/-!
A place in YAML text, and the white space between the pieces of a scalar that runs over several
lines.
-/

namespace ShopLint.Yaml

def isBlank (c : Char) : Bool := c = ' ' || c = '\t'

def isBreak (c : Char) : Bool :=
  c = '\n' || c = '\r' || c = '\u0085' || c = '\u2028' || c = '\u2029'

def isGap (c : Char) : Bool := isBlank c || isBreak c

/-- The text ends or goes on with a blank or a line break. -/
def atGap : List Char → Bool
  | [] => true
  | c :: _ => isGap c

/-- The letters of anchors and directives. -/
def isWordChar (c : Char) : Bool := c.isAlphanum || c = '_' || c = '-'

/-- The characters that may stand in the text at all. -/
def isAllowed (c : Char) : Bool :=
  c = '\t' || c = '\n' || c = '\r' || (' ' ≤ c && c ≤ '~') || c = '\u0085' || ('\u00a0' ≤ c && c ≤ '\ud7ff') ||
    ('\ue000' ≤ c && c ≤ '\ufffd') || 0x10000 ≤ c.toNat

/-- The text from a place on, with the number of characters before it and its line and column. -/
structure Cursor where
  rest : List Char
  index : Nat := 0
  line : Nat := 0
  column : Nat := 0

namespace Cursor

/-- `n` characters further on the same line. -/
def skip (c : Cursor) (n : Nat) : Cursor :=
  { c with rest := c.rest.drop n, index := c.index + n, column := c.column + n }

/-- The start of the next line, from a line break; both characters of a pair count as one. -/
def nextLine (c : Cursor) : Cursor :=
  match c.rest with
  | '\r' :: '\n' :: rest => ⟨rest, c.index + 2, c.line + 1, 0⟩
  | _ :: rest => ⟨rest, c.index + 1, c.line + 1, 0⟩
  | [] => c

/-- The line break here as it is kept in text. -/
def breakText (c : Cursor) : List Char :=
  match c.rest with
  | [] => []
  | b :: _ => if b = '\u2028' || b = '\u2029' then [b] else ['\n']

def atBreak (c : Cursor) : Bool := c.rest.head?.any isBreak

def atBlank (c : Cursor) : Bool := c.rest.head?.any isBlank

/-- A line that starts with `mark`, alone or before a gap, divides documents. -/
def atMark (c : Cursor) (mark : String) : Bool :=
  c.column = 0 && mark.toList.isPrefixOf c.rest && atGap (c.rest.drop mark.length)

def atDocumentMark (c : Cursor) : Bool := c.atMark "---" || c.atMark "..."

end Cursor

/-- What separates two pieces of a scalar. `folded`: a line break was passed, of which `lead` is the
first and `more` are the others; before one, `blanks` are kept. -/
structure Gap where
  blanks : List Char := []
  folded : Bool := false
  lead : List Char := []
  more : List Char := []

/-- The text that a gap stands for: a single line break becomes a space, further ones are kept. -/
def Gap.text (g : Gap) : List Char :=
  if !g.folded then g.blanks
  else if g.lead = ['\n'] then (if g.more.isEmpty then [' '] else g.more)
  else g.lead ++ g.more

/-- Passes over blanks and line breaks; `none` when a tab stands before column `indent` on a new
line. -/
def readGap (indent : Nat) : Nat → Gap → Cursor → Option (Gap × Cursor)
  | 0, g, c => some (g, c)
  | fuel + 1, g, c =>
    match c.rest with
    | [] => some (g, c)
    | a :: _ =>
      if isBlank a then
        if g.folded && c.column < indent && a = '\t' then none
        else readGap indent fuel (if g.folded then g else { g with blanks := g.blanks ++ [a] }) (c.skip 1)
      else if isBreak a then
        if g.folded then readGap indent fuel { g with more := g.more ++ c.breakText } c.nextLine
        else readGap indent fuel { folded := true, lead := c.breakText } c.nextLine
      else some (g, c)

end ShopLint.Yaml
