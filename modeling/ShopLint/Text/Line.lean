import ShopLint.Text.Chars

/-!
Lines of a text, counted from one. A newline ends a line and belongs to it, so a position's line is
one more than the newlines before it.
-/

namespace ShopLint

/-- The line on which the text after `before` starts. -/
def lineAfter (before : List Char) : Nat := before.count '\n' + 1

/-- The lines of a text, without their newlines. -/
def linesOf (text : List Char) : List (List Char) := Chars.splitOn '\n' text

/-- The line of the first `needle`, or 0 when there is none. An empty needle is nowhere. -/
def findLine (text needle : List Char) : Nat :=
  if needle.isEmpty then 0
  else
    match Chars.cut needle text with
    | some (before, _) => lineAfter before
    | none => 0

/-- The numbers of the lines for which `p` holds, counting from `start`. -/
def numbersFrom (start : Nat) (p : List Char → Bool) : List (List Char) → List Nat
  | [] => []
  | line :: lines =>
    if p line then start :: numbersFrom (start + 1) p lines else numbersFrom (start + 1) p lines

/-- The numbers of all lines that hold `needle`. -/
def findAllLines (text needle : List Char) : List Nat :=
  if needle.isEmpty then [] else numbersFrom 1 (Chars.contains needle) (linesOf text)

/-- The lines of a text with the carriage return of each line ending dropped; an empty text has none. -/
def splitLines (text : List Char) : List (List Char) :=
  if text.isEmpty then []
  else (linesOf text).map fun line => if line.getLast? = some '\r' then line.dropLast else line

end ShopLint
