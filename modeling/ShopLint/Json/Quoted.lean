import ShopLint.Text.Quoted

/-!
Strings in JSON text. Quotes, backslashes and controls are escaped, and so are the characters that
mean something to HTML and the two line separators of Unicode.
-/

namespace ShopLint.Json

/-- A numbered escape of four digits. -/
def numbered (c : Char) : List Char := ['\\', 'u'] ++ Text.hexDigits 4 c.toNat

def escapeChar (c : Char) : List Char :=
  if c = '"' then ['\\', '"']
  else if c = '\\' then ['\\', '\\']
  else if c = '\n' then ['\\', 'n']
  else if c = '\r' then ['\\', 'r']
  else if c = '\t' then ['\\', 't']
  else if c = '\x08' then ['\\', 'b']
  else if c = '\x0c' then ['\\', 'f']
  else if c.toNat < 32 || c = '<' || c = '>' || c = '&' || c = '\u2028' || c = '\u2029' then numbered c
  else [c]

def quote (text : String) : List Char := ['"'] ++ text.toList.flatMap escapeChar ++ ['"']

def hexValue? (c : Char) : Option Nat :=
  if '0' ≤ c && c ≤ '9' then some (c.toNat - '0'.toNat)
  else if 'a' ≤ c && c ≤ 'f' then some (c.toNat - 'a'.toNat + 10)
  else if 'A' ≤ c && c ≤ 'F' then some (c.toNat - 'A'.toNat + 10)
  else none

/-- The number that four hexadecimal digits stand for. -/
def hex4? (a b c d : Char) : Option Nat := do
  return (((← hexValue? a) * 16 + (← hexValue? b)) * 16 + (← hexValue? c)) * 16 + (← hexValue? d)

def isHighSurrogate (n : Nat) : Bool := 0xD800 ≤ n && n < 0xDC00

def isLowSurrogate (n : Nat) : Bool := 0xDC00 ≤ n && n < 0xE000

/-- The character of a single code unit; a surrogate alone stands for no character and is replaced. -/
def unitChar (n : Nat) : Char := if 0xD800 ≤ n && n < 0xE000 then '\ufffd' else Char.ofNat n

def pairChar (high low : Nat) : Char := Char.ofNat (0x10000 + (high - 0xD800) * 0x400 + (low - 0xDC00))

/-- The character that a one-letter escape stands for. -/
def shortEscape? (c : Char) : Option Char :=
  if c = '"' || c = '\\' || c = '/' then some c
  else if c = 'b' then some '\x08'
  else if c = 'f' then some '\x0c'
  else if c = 'n' then some '\n'
  else if c = 'r' then some '\r'
  else if c = 't' then some '\t'
  else none

/-- The text of a string after its opening quote, and what follows the closing one. Two numbered
escapes that form a surrogate pair are one character. -/
def unquote? : List Char → Option (List Char × List Char)
  | [] => none
  | c :: rest =>
    if c = '"' then some ([], rest)
    else if c.toNat < 32 then none
    else if c = '\\' then
      match rest with
      | 'u' :: a :: b :: c :: d :: '\\' :: 'u' :: e :: f :: g :: h :: rest =>
        match hex4? a b c d with
        | none => none
        | some n =>
          match hex4? e f g h with
          | none => none
          | some m =>
            if isHighSurrogate n && isLowSurrogate m then
              (unquote? rest).map fun p => (pairChar n m :: p.1, p.2)
            else
              (unquote? ('\\' :: 'u' :: e :: f :: g :: h :: rest)).map fun p => (unitChar n :: p.1, p.2)
      | 'u' :: a :: b :: c :: d :: rest =>
        match hex4? a b c d with
        | none => none
        | some n => (unquote? rest).map fun p => (unitChar n :: p.1, p.2)
      | e :: rest =>
        match shortEscape? e with
        | some c => (unquote? rest).map fun p => (c :: p.1, p.2)
        | none => none
      | [] => none
    else (unquote? rest).map fun p => (c :: p.1, p.2)
termination_by text => text.length
decreasing_by all_goals simp only [List.length_cons]; omega

end ShopLint.Json
