import ShopLint.Text.Chars
import ShopLint.Text.Classes

/-!
The operations on strings that the rules are written with. Each is its counterpart on lists of
characters.
-/

namespace ShopLint.Text

def contains (text needle : String) : Bool := Chars.contains needle.toList text.toList

def startsWith (text lead : String) : Bool := lead.toList.isPrefixOf text.toList

def endsWith (text tail : String) : Bool := tail.toList.isSuffixOf text.toList

/-- `text` ends in one of the given tails. -/
def endsWithAny (text : String) (tails : List String) : Bool := tails.any (endsWith text)

/-- `text` holds one of the given needles. -/
def containsAny (text : String) (needles : List String) : Bool := needles.any (contains text)

/-- `text` without one leading `lead`, if it has it. -/
def dropStart (lead text : String) : String :=
  match Chars.after? lead.toList text.toList with
  | some rest => String.ofList rest
  | none => text

/-- `text` without one closing `tail`, if it has it. -/
def dropEnd (tail text : String) : String :=
  match Chars.after? tail.toList.reverse text.toList.reverse with
  | some rest => String.ofList rest.reverse
  | none => text

/-- What stands before and after the first `needle`. -/
def cut (needle text : String) : Option (String × String) :=
  (Chars.cut needle.toList text.toList).map fun p => (String.ofList p.1, String.ofList p.2)

/-- What stands before and after the last `needle`. -/
def cutLast (needle text : String) : Option (String × String) :=
  (Chars.cutLast needle.toList text.toList).map fun p => (String.ofList p.1, String.ofList p.2)

def splitOn (sep : Char) (text : String) : List String :=
  (Chars.splitOn sep text.toList).map String.ofList

def join (sep : String) : List String → String
  | [] => ""
  | [piece] => piece
  | piece :: pieces => piece ++ sep ++ join sep pieces

def replaceFirst (old new text : String) : String :=
  match cut old text with
  | some (before, rest) => before ++ new ++ rest
  | none => text

def replaceAll (old new text : String) : String :=
  String.ofList (Chars.replaceAll old.toList new.toList text.toList)

/-- `text` without the white space around it. -/
def trim (text : String) : String := String.ofList (Chars.trimWhile isBlank text.toList)

/-- `text` without the trailing characters `c`. -/
def trimEndChar (c : Char) (text : String) : String :=
  String.ofList (Chars.dropRightWhile (· = c) text.toList)

/-- The items between commas, trimmed, without the empty ones. -/
def listItems (text : String) : List String :=
  ((splitOn ',' text).map trim).filter (· ≠ "")

/-- All items of all lists, each kept where it stands first. -/
def mergeLists (lists : List (List String)) : List String :=
  lists.flatten.foldl (fun kept item => if item ∈ kept then kept else kept ++ [item]) []

/-- The truth value that a text spells. -/
def parseBool? (text : String) : Option Bool :=
  if text ∈ ["1", "t", "T", "true", "TRUE", "True"] then some true
  else if text ∈ ["0", "f", "F", "false", "FALSE", "False"] then some false
  else none

end ShopLint.Text
