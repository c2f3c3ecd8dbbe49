import ShopLint.Json.Quoted
import ShopLint.Json.Value

/-!
JSON text, on one line or indented by two spaces a level. Empty arrays and objects stay on one line.
-/

namespace ShopLint.Json.Value

mutual

/-- The text of a value without any blanks. -/
def compact : Value → List Char
  | null => "null".toList
  | bool b => (if b then "true" else "false").toList
  | number literal => literal.toList
  | string text => quote text
  | array items => ['['] ++ compactItems items ++ [']']
  | object members => ['\x7b'] ++ compactMembers members ++ ['\x7d']

def compactItems : List Value → List Char
  | [] => []
  | [item] => compact item
  | item :: items => compact item ++ [','] ++ compactItems items

def compactMembers : List (String × Value) → List Char
  | [] => []
  | [(key, value)] => quote key ++ [':'] ++ compact value
  | (key, value) :: members => quote key ++ [':'] ++ compact value ++ [','] ++ compactMembers members

end

/-- A new line at the given depth. -/
def lineBreak (depth : Nat) : List Char := '\n' :: List.replicate (2 * depth) ' '

mutual

/-- The text of a value with one line per item and member; `depth` is the depth of the value. -/
def indented (depth : Nat) : Value → List Char
  | null => "null".toList
  | bool b => (if b then "true" else "false").toList
  | number literal => literal.toList
  | string text => quote text
  | array [] => ['[', ']']
  | array (item :: items) => ['['] ++ indentedItems (depth + 1) (item :: items) ++ lineBreak depth ++ [']']
  | object [] => ['\x7b', '\x7d']
  | object (member :: members) =>
    ['\x7b'] ++ indentedMembers (depth + 1) (member :: members) ++ lineBreak depth ++ ['\x7d']

def indentedItems (depth : Nat) : List Value → List Char
  | [] => []
  | [item] => lineBreak depth ++ indented depth item
  | item :: items => lineBreak depth ++ indented depth item ++ [','] ++ indentedItems depth items

def indentedMembers (depth : Nat) : List (String × Value) → List Char
  | [] => []
  | [(key, value)] => lineBreak depth ++ quote key ++ [':', ' '] ++ indented depth value
  | (key, value) :: members =>
    lineBreak depth ++ quote key ++ [':', ' '] ++ indented depth value ++ [','] ++
      indentedMembers depth members

end

/-- The text on one line. -/
def toText (v : Value) : String := String.ofList v.compact

/-- The indented text. -/
def toLines (v : Value) : String := String.ofList (v.indented 0)

end ShopLint.Json.Value
