import ShopLint.Text.CaseTable

/-!
Letter case beyond ASCII: lower case, comparison without regard to case, and title case by words.
-/

namespace ShopLint

namespace LetterCase

/-- The lower-case form of one character. ASCII is decided without the tables. -/
def lowerChar (c : Char) : Char :=
  if c.toNat < 128 then c.toLower else Char.ofNat (CaseTable.apply CaseTable.lower c.toNat)

/-- The form under which characters that differ only in case are equal. -/
def foldChar (c : Char) : Char :=
  if c.toNat < 128 then c.toLower else Char.ofNat (CaseTable.apply CaseTable.fold c.toNat)

/-- The title form of one character, which may have several letters. -/
def titleChar (c : Char) : List Char :=
  if c.toNat < 128 then [c.toUpper]
  else
    match CaseTable.titleSequences.lookup c.toNat with
    | some codes => codes.map Char.ofNat
    | none => [Char.ofNat (CaseTable.apply CaseTable.title c.toNat)]

/-- The lower-case form inside a word: a dotted capital I keeps its dot. -/
def lowerInWord (c : Char) : List Char :=
  if c = '\u0130' then ['i', '\u0307'] else [lowerChar c]

/-- The upper-case form of one character. -/
def upperChar (c : Char) : Char :=
  if c.toNat < 128 then c.toUpper else Char.ofNat (CaseTable.apply CaseTable.title c.toNat)

def isCased (c : Char) : Bool := CaseTable.within CaseTable.cased c.toNat

def isIgnorable (c : Char) : Bool := CaseTable.within CaseTable.ignorable c.toNat

def isMiddle (c : Char) : Bool := CaseTable.within CaseTable.middle c.toNat

/-- A character without a case that ends a word. -/
def isBreak (c : Char) : Bool :=
  !isMiddle c && !CaseTable.within CaseTable.joining c.toNat

/-- The next character that is not ignorable has a case. -/
def casedFollows (text : List Char) : Bool :=
  match text.dropWhile isIgnorable with
  | [] => false
  | c :: _ => isCased c

/-- Lower case of a letter inside a word; a capital sigma that ends the word takes its final form. -/
def lowerBefore (c : Char) (rest : List Char) : List Char :=
  if c = 'Σ' then [if casedFollows rest then 'σ' else 'ς'] else lowerInWord c

/-- Title case of `text`. `inWord`: the first cased letter of the present word has been passed;
`afterMiddle`: the character before was one that may stand inside a word. -/
def titleFrom (inWord afterMiddle : Bool) : List Char → List Char
  | [] => []
  | c :: rest =>
    let inWord := inWord && !(afterMiddle && isMiddle c)
    if isCased c then
      (if inWord then lowerBefore c rest else titleChar c) ++ titleFrom true false rest
    else c :: titleFrom (inWord && !isBreak c) (isMiddle c) rest

end LetterCase

namespace Text

def toLower (text : String) : String := String.ofList (text.toList.map LetterCase.lowerChar)

def toUpper (text : String) : String := String.ofList (text.toList.map LetterCase.upperChar)

/-- Equality of texts without regard to case. -/
def equalFold (a b : String) : Bool :=
  a.toList.map LetterCase.foldChar == b.toList.map LetterCase.foldChar

/-- The first cased letter of each word in title case, the others in lower case. -/
def toTitle (text : String) : String := String.ofList (LetterCase.titleFrom false false text.toList)

/-- `letter`, an ASCII lower-case letter, matched without regard to case. Besides its capital this
accepts the long s and the Kelvin sign. -/
def sameLetter (letter c : Char) : Bool := LetterCase.foldChar c == letter

end Text

end ShopLint
