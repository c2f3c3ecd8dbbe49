import ShopLint.Json.Quoted
import ShopLint.Json.Value
import ShopLint.Text.Chars

/-!
Reading JSON text. Nothing but blanks may follow the value, and arrays and objects stand in each other
only down to a fixed depth.
-/

namespace ShopLint.Json

def isJsonBlank (c : Char) : Bool := c = ' ' || c = '\t' || c = '\n' || c = '\r'

def skipBlanks (text : List Char) : List Char := text.dropWhile isJsonBlank

def isDecimal (c : Char) : Bool := '0' ≤ c && c ≤ '9'

/-- The whole part of a number: a zero alone, or digits that do not start with one. -/
def wholePart? : List Char → Option (List Char × List Char)
  | [] => none
  | c :: cs =>
    if c = '0' then some (['0'], cs)
    else if isDecimal c then some (c :: cs.takeWhile isDecimal, cs.dropWhile isDecimal)
    else none

/-- A point with at least one digit, or nothing; a point without digits is refused. -/
def fractionPart? : List Char → Option (List Char × List Char)
  | '.' :: cs =>
    match cs.takeWhile isDecimal with
    | [] => none
    | digits => some ('.' :: digits, cs.dropWhile isDecimal)
  | cs => some ([], cs)

/-- An exponent with at least one digit, or nothing. -/
def exponentPart? : List Char → Option (List Char × List Char)
  | [] => some ([], [])
  | c :: cs =>
    if c = 'e' || c = 'E' then
      let (sign, digits) :=
        match cs with
        | '+' :: ds => (['+'], ds)
        | '-' :: ds => (['-'], ds)
        | ds => ([], ds)
      match digits.takeWhile isDecimal with
      | [] => none
      | ds => some (c :: sign ++ ds, digits.dropWhile isDecimal)
    else some ([], c :: cs)

/-- A number literal and what follows it. -/
def number? (text : List Char) : Option (List Char × List Char) := do
  let (sign, text) :=
    match text with
    | '-' :: cs => (['-'], cs)
    | cs => ([], cs)
  let (whole, text) ← wholePart? text
  let (fraction, text) ← fractionPart? text
  let (exponent, text) ← exponentPart? text
  return (sign ++ whole ++ fraction ++ exponent, text)

/-- How many arrays and objects may be open at one place of a text. -/
def nestingLimit : Nat := 10000

mutual

/-- A value and what follows it. `room` is how many more arrays and objects may be opened. -/
def parseValue : Nat → Nat → List Char → Option (Value × List Char)
  | 0, _, _ => none
  | fuel + 1, room, text =>
    match skipBlanks text with
    | [] => none
    | c :: cs =>
      if c = '"' then (unquote? cs).map fun p => (.string (String.ofList p.1), p.2)
      else if c = '[' then
        if room = 0 then none
        else
          match skipBlanks cs with
          | ']' :: rest => some (.array [], rest)
          | rest => (parseItems fuel (room - 1) rest).map fun p => (.array p.1, p.2)
      else if c = '\x7b' then
        if room = 0 then none
        else
          match skipBlanks cs with
          | '\x7d' :: rest => some (.object [], rest)
          | rest => (parseMembers fuel (room - 1) rest).map fun p => (.object p.1, p.2)
      else if c = 'n' then (Chars.after? "ull".toList cs).map fun rest => (.null, rest)
      else if c = 't' then (Chars.after? "rue".toList cs).map fun rest => (.bool true, rest)
      else if c = 'f' then (Chars.after? "alse".toList cs).map fun rest => (.bool false, rest)
      else (number? (c :: cs)).map fun p => (.number (String.ofList p.1), p.2)

/-- The items of an array up to its closing bracket; there is at least one. -/
def parseItems : Nat → Nat → List Char → Option (List Value × List Char)
  | 0, _, _ => none
  | fuel + 1, room, text =>
    match parseValue fuel room text with
    | none => none
    | some (item, rest) =>
      match skipBlanks rest with
      | ',' :: rest => (parseItems fuel room rest).map fun p => (item :: p.1, p.2)
      | ']' :: rest => some ([item], rest)
      | _ => none

/-- The members of an object up to its closing brace; there is at least one. -/
def parseMembers : Nat → Nat → List Char → Option (List (String × Value) × List Char)
  | 0, _, _ => none
  | fuel + 1, room, text =>
    match skipBlanks text with
    | '"' :: cs =>
      match unquote? cs with
      | none => none
      | some (key, rest) =>
        match skipBlanks rest with
        | ':' :: rest =>
          match parseValue fuel room rest with
          | none => none
          | some (value, rest) =>
            match skipBlanks rest with
            | ',' :: rest =>
              (parseMembers fuel room rest).map fun p => ((String.ofList key, value) :: p.1, p.2)
            | '\x7d' :: rest => some ([(String.ofList key, value)], rest)
            | _ => none
        | _ => none
    | _ => none

end

/-- The value that a text holds. -/
def parse? (text : List Char) : Option Value :=
  match parseValue (2 * text.length + 2) nestingLimit text with
  | some (value, rest) => if (skipBlanks rest).isEmpty then some value else none
  | none => none

end ShopLint.Json
