import ShopLint.Number.Decimal
import ShopLint.Text.Base64
import ShopLint.Yaml.Node

/-!
What YAML scalars stand for: nothing, a truth value, a number, or just their text.
-/

namespace ShopLint.Yaml

/-- The value of a scalar. Numbers with a fraction are those that 64 bits can hold; `isNegative` tells
the two infinities apart. -/
inductive Meaning
  | null
  | bool (b : Bool)
  | int (n : Int)
  | float (x : Binary64)
  | infinite (isNegative : Bool)
  | undefined
  | date
  | text (s : String)

namespace Meaning

def trueWords : List String :=
  ["y", "Y", "yes", "Yes", "YES", "true", "True", "TRUE", "on", "On", "ON"]

def falseWords : List String :=
  ["n", "N", "no", "No", "NO", "false", "False", "FALSE", "off", "Off", "OFF"]

def nullWords : List String := ["", "~", "null", "Null", "NULL"]

/-- The value of a word with a meaning of its own. -/
def ofWord? (word : String) : Option Meaning :=
  if word ∈ nullWords then some null
  else if word ∈ trueWords then some (bool true)
  else if word ∈ falseWords then some (bool false)
  else if word ∈ [".nan", ".NaN", ".NAN"] then some undefined
  else if word ∈ [".inf", ".Inf", ".INF", "+.inf", "+.Inf", "+.INF"] then some (infinite false)
  else if word ∈ ["-.inf", "-.Inf", "-.INF"] then some (infinite true)
  else none

/-- The value of a digit in bases up to 16. -/
def digitValue? (base : Nat) (c : Char) : Option Nat :=
  match hexValue? c with
  | some v => if v < base then some v else none
  | none => none

def inBase? (base : Nat) (digits : List Char) : Option Nat :=
  (digits.mapM (digitValue? base)).map fun values => values.foldl (fun n v => base * n + v) 0

/-- A whole number without sign: hexadecimal, binary or octal after a lead, else decimal. -/
def natural? (text : List Char) : Option Nat :=
  match text with
  | [] => none
  | '0' :: lead :: d :: rest =>
    if lead = 'x' || lead = 'X' then inBase? 16 (d :: rest)
    else if lead = 'b' || lead = 'B' then inBase? 2 (d :: rest)
    else if lead = 'o' || lead = 'O' then inBase? 8 (d :: rest)
    else inBase? 8 (lead :: d :: rest)
  | '0' :: rest => inBase? 8 rest
  | _ => inBase? 10 text

/-- The sign of a number and the text after it. -/
def signed : List Char → Bool × List Char
  | '-' :: rest => (true, rest)
  | '+' :: rest => (false, rest)
  | rest => (false, rest)

/-- A whole number that fits in 64 bits, with or without sign. -/
def integer? (text : List Char) : Option Int := do
  let (negative, digits) := signed text
  let n ← natural? digits
  if negative then (if n ≤ Word.signedLimit then some (-(n : Int)) else none)
  else if n < Word.signedLimit then some n
  else if n < Word.unsignedLimit && text.length = digits.length then some n
  else none

/-- An optional exponent ends the text. -/
def endsInExponent : List Char → Bool
  | [] => true
  | mark :: rest =>
    let digits := (signed rest).2
    (mark = 'e' || mark = 'E') && !digits.isEmpty && digits.all Decimal.isDigitChar

/-- Digits, a fraction and an exponent, with at least one digit. -/
def isDecimal (text : List Char) : Bool :=
  let text := (signed text).2
  let whole := text.takeWhile Decimal.isDigitChar
  match text.drop whole.length with
  | '.' :: rest =>
    let fraction := rest.takeWhile Decimal.isDigitChar
    !(whole.isEmpty && fraction.isEmpty) && endsInExponent (rest.drop fraction.length)
  | rest => !whole.isEmpty && endsInExponent rest

def float? (text : List Char) : Option Meaning :=
  if isDecimal text then (Binary64.ofDecimal? (.ofNumeral text)).map float else none

/-- The text starts like a date: four digits and a dash. -/
def isDate (text : List Char) : Bool :=
  (text.take 4).length = 4 && (text.take 4).all Decimal.isDigitChar &&
    ((text.drop 4).takeWhile fun c => Decimal.isDigitChar c || c = '-').length ≥ 4 &&
    text[4]? = some '-'

/-- The meaning of a plain scalar. Its first character tells what it can be. -/
def ofPlain (text : String) : Meaning :=
  let chars := text.toList
  match chars with
  | [] => null
  | c :: _ =>
    let fallback := Meaning.text text
    if c ∈ "yYnNtTfFoO~".toList then (ofWord? text).getD fallback
    else if c = '.' then ((ofWord? text).orElse fun _ => float? chars).getD fallback
    else if c = '+' || c = '-' || Decimal.isDigitChar c then
      let digits := chars.filter (· ≠ '_')
      (((ofWord? text).orElse fun _ => (integer? digits).map int).orElse fun _ => float? digits).getD fallback
    else fallback

def coreTag (name : String) : String := "tag:yaml.org,2002:" ++ name

/-- The meaning of a scalar with its tag; `none` when they do not fit. Text in quotes, and scalars with
tags of other schemas, are just text. -/
def of? (tag text : String) (isPlain : Bool) : Option Meaning :=
  if tag = "" then some (if isPlain then ofPlain text else .text text)
  else if tag = coreTag "str" then some (.text text)
  else if tag = coreTag "binary" then do
    let bytes ← Base64.decode? text
    return .text (← String.fromUTF8? (ByteArray.mk bytes.toArray))
  else
    let found := ofPlain text
    if tag = coreTag "null" then (match found with | null => some null | _ => none)
    else if tag = coreTag "bool" then (match found with | bool b => some (bool b) | _ => none)
    else if tag = coreTag "int" then (match found with | int n => some (int n) | _ => none)
    else if tag = coreTag "float" then
      match found with
      | int n => (Binary64.ofDecimal? ⟨n < 0, n.natAbs, 0⟩).map float
      | float x => some (float x)
      | infinite s => some (infinite s)
      | undefined => some undefined
      | _ => none
    else if tag = coreTag "timestamp" then (if isDate text.toList then some date else none)
    else some (.text text)

end Meaning

end ShopLint.Yaml
