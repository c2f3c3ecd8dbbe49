import ShopLint.Number.Decimal
import ShopLint.Text.Classes

/-!
The words of gate expressions: names, numbers, quoted text and operators. Blanks and comments
separate them.
-/

namespace ShopLint.Gate

inductive Token
  | name (text : String)
  | symbol (text : String)
  | int (value : Nat)
  | uint (value : Nat)
  | double (value : Decimal)
  | text (value : String)
  | bytes (value : List UInt8)
  deriving DecidableEq, Repr

namespace Token

def isGap (c : Char) : Bool := c = '\t' || c = ' ' || c = '\r' || c = '\n' || c = '\x0c'

/-- Operators and brackets; a longer one stands before those it starts with. -/
def symbols : List String := ["==", "!=", "<=", ">=", "&&", "||", "<", ">", "[", "]", "\x7b", "\x7d",
  "(", ")", ".", ",", "-", "!", "?", ":", "+", "*", "/", "%"]

/-- Names that are symbols of the grammar. -/
def keywords : List String := ["in", "true", "false", "null"]

def hexValue? (c : Char) : Option Nat :=
  if '0' ≤ c ∧ c ≤ '9' then some (c.toNat - 0x30)
  else if 'a' ≤ c ∧ c ≤ 'f' then some (c.toNat - 0x57)
  else if 'A' ≤ c ∧ c ≤ 'F' then some (c.toNat - 0x37)
  else none

def ofHex (digits : List Char) : Nat := digits.foldl (fun n c => 16 * n + (hexValue? c).getD 0) 0

/-- An exponent with its mark, if one stands here. -/
def exponent : List Char → List Char × List Char
  | [] => ([], [])
  | mark :: rest =>
    let (sign, tail) :=
      match rest with
      | '+' :: tail => (['+'], tail)
      | '-' :: tail => (['-'], tail)
      | tail => ([], tail)
    let digits := tail.takeWhile Decimal.isDigitChar
    if (mark = 'e' || mark = 'E') && !digits.isEmpty then (mark :: sign ++ digits, tail.drop digits.length)
    else ([], mark :: rest)

/-- A whole number, which an `u` makes one without sign. -/
def whole (value : Nat) : List Char → Token × List Char
  | 'u' :: rest => (uint value, rest)
  | 'U' :: rest => (uint value, rest)
  | rest => (int value, rest)

/-- A number that starts with a digit. -/
def number (text : List Char) : Token × List Char :=
  let digits := text.takeWhile Decimal.isDigitChar
  let rest := text.drop digits.length
  let fraction :=
    match rest with
    | '.' :: more => more.takeWhile Decimal.isDigitChar
    | _ => []
  if !fraction.isEmpty then
    let (power, rest) := exponent (rest.drop (1 + fraction.length))
    (double (.ofNumeral (digits ++ ['.'] ++ fraction ++ power)), rest)
  else
    match exponent rest with
    | ([], _) =>
      let hex := (rest.drop 1).takeWhile fun c => (hexValue? c).isSome
      if digits = ['0'] && rest.head? = some 'x' && !hex.isEmpty then
        whole (ofHex hex) (rest.drop (1 + hex.length))
      else whole (Decimal.ofDigits digits) rest
    | (power, rest) => (double (.ofNumeral (digits ++ power)), rest)

/-- One element of quoted text: a character, or a byte that an escape names. -/
inductive Piece
  | char (c : Char)
  | byte (b : Nat)

/-- The characters that short escapes stand for. -/
def shortEscapes : List (Char × Char) := [('a', '\x07'), ('b', '\x08'), ('f', '\x0c'), ('n', '\n'),
  ('r', '\r'), ('t', '\t'), ('v', '\x0b'), ('\\', '\\'), ('\'', '\''), ('"', '"'), ('\x60', '\x60'),
  ('?', '?')]

/-- A character by its number in `width` hexadecimal digits. -/
def numbered? (width : Nat) (text : List Char) : Option (Nat × List Char) := do
  let digits := text.take width
  let values ← digits.mapM hexValue?
  if digits.length = width then some (values.foldl (fun n v => 16 * n + v) 0, text.drop width) else none

def charOf? (code : Nat) : Option Piece :=
  if (Char.ofNat code).toNat = code then some (.char (Char.ofNat code)) else none

/-- An escape, read after its backslash. -/
def escape? : List Char → Option (Piece × List Char)
  | [] => none
  | c :: rest =>
    match shortEscapes.lookup c with
    | some plain => some (.char plain, rest)
    | none =>
      if c = 'x' || c = 'X' then (numbered? 2 rest).map fun (n, rest) => (.byte n, rest)
      else if c = 'u' then do
        let (n, rest) ← numbered? 4 rest
        return (← charOf? n, rest)
      else if c = 'U' then do
        let (n, rest) ← numbered? 8 rest
        return (← charOf? n, rest)
      else
        match c :: rest with
        | a :: b :: d :: rest =>
          if '0' ≤ a && a ≤ '3' && '0' ≤ b && b ≤ '7' && '0' ≤ d && d ≤ '7' then
            some (.byte (64 * (a.toNat - 0x30) + 8 * (b.toNat - 0x30) + (d.toNat - 0x30)), rest)
          else none
        | _ => none

/-- The text of a literal up to its closing `quote`. `raw`: a backslash is an ordinary character;
`long`: the quote has three characters and line ends may stand inside. -/
def body? (raw long : Bool) (quote : List Char) : Nat → List Char → Option (List Piece × List Char)
  | 0, _ => none
  | _, [] => none
  | fuel + 1, c :: rest =>
    if quote.isPrefixOf (c :: rest) then some ([], (c :: rest).drop quote.length)
    else if c = '\\' && !raw then do
      let (piece, rest) ← escape? rest
      let (pieces, rest) ← body? raw long quote fuel rest
      return (piece :: pieces, rest)
    else if !long && (c = '\n' || c = '\r') then none
    else do
      let rest := if c = '\r' && rest.head? = some '\n' then rest.drop 1 else rest
      let (pieces, rest) ← body? raw long quote fuel rest
      return (.char (if c = '\r' then '\n' else c) :: pieces, rest)

/-- A quoted literal without the letters before it. -/
def quoted? (raw : Bool) (text : List Char) : Option (List Piece × List Char) :=
  match text with
  | [] => none
  | q :: rest =>
    if q ≠ '"' && q ≠ '\'' then none
    else if [q, q].isPrefixOf rest then body? raw true [q, q, q] text.length (rest.drop 2)
    else body? raw false [q] text.length rest

/-- Pieces as text; the number of a byte is the number of its character. -/
def textOf (pieces : List Piece) : String :=
  String.ofList (pieces.map fun
    | .char c => c
    | .byte b => Char.ofNat b)

def bytesOf (pieces : List Piece) : List UInt8 :=
  pieces.flatMap fun
    | .char c => (String.singleton c).toUTF8.toList
    | .byte b => [UInt8.ofNat b]

/-- A quoted literal with the letters `r` and `b` that may stand before it. The outer result is `none`
when no literal starts here. -/
def literal? (text : List Char) : Option (Option (Token × List Char)) :=
  let isQuote (c : Char) : Bool := c = '"' || c = '\''
  let isRaw (c : Char) : Bool := c = 'r' || c = 'R'
  let isBytes (c : Char) : Bool := c = 'b' || c = 'B'
  let asText (p : List Piece × List Char) : Token × List Char := (.text (textOf p.1), p.2)
  let asBytes (p : List Piece × List Char) : Token × List Char := (.bytes (bytesOf p.1), p.2)
  match text with
  | a :: b :: c :: _ =>
    if isQuote a then some ((quoted? false text).map asText)
    else if isRaw a && isQuote b then some ((quoted? true (text.drop 1)).map asText)
    else if isBytes a && isQuote b then some ((quoted? false (text.drop 1)).map asBytes)
    else if isBytes a && isRaw b && isQuote c then some ((quoted? true (text.drop 2)).map asBytes)
    else none
  | a :: _ => if isQuote a then some ((quoted? false text).map asText) else none
  | [] => none

/-- The token at the start of a text that is neither a blank nor a comment. -/
def next? (text : List Char) : Option (Token × List Char) :=
  match literal? text with
  | some found => found
  | none =>
    match text with
    | [] => none
    | c :: rest =>
      if Decimal.isDigitChar c then some (number text)
      else if c = '.' && (rest.head?.any Decimal.isDigitChar) then
        let digits := rest.takeWhile Decimal.isDigitChar
        let (power, rest) := exponent (rest.drop digits.length)
        some (double (.ofNumeral ('0' :: '.' :: digits ++ power)), rest)
      else if isNameStart c then
        let word := String.ofList (text.takeWhile isWord)
        some (if word ∈ keywords then symbol word else name word, text.dropWhile isWord)
      else
        (symbols.find? fun s => s.toList.isPrefixOf text).map fun s => (symbol s, text.drop s.length)

/-- The tokens of a text; `fuel` bounds their number. -/
def scan? : Nat → List Char → Option (List Token)
  | _, [] => some []
  | 0, _ => none
  | fuel + 1, c :: rest =>
    if isGap c then scan? fuel rest
    else if ['/', '/'].isPrefixOf (c :: rest) then scan? fuel (rest.dropWhile (· ≠ '\n'))
    else do
      let (token, rest) ← next? (c :: rest)
      return token :: (← scan? fuel rest)

/-- The tokens of an expression; `none` when some part of it is no token. -/
def all? (text : List Char) : Option (List Token) := scan? text.length text

end Token

end ShopLint.Gate
