import ShopLint.Dict
import ShopLint.Number.Decimal

/-!
JSON values. A number keeps its literal; an object keeps its members in the order in which they were
written or are to be written. In normal form every number is a binary number of 53 bits in its shortest
numeral, and every object has its members once each, in the order of their keys.
-/

namespace ShopLint.Json

inductive Value
  | null
  | bool (b : Bool)
  | number (literal : String)
  | string (text : String)
  | array (items : List Value)
  | object (members : List (String × Value))
  deriving Inhabited, Repr

namespace Value

mutual

def beq : Value → Value → Bool
  | null, null => true
  | bool a, bool b => a == b
  | number a, number b => a == b
  | string a, string b => a == b
  | array as, array bs => beqItems as bs
  | object as, object bs => beqMembers as bs
  | _, _ => false

def beqItems : List Value → List Value → Bool
  | [], [] => true
  | a :: as, b :: bs => beq a b && beqItems as bs
  | _, _ => false

def beqMembers : List (String × Value) → List (String × Value) → Bool
  | [], [] => true
  | (k, a) :: as, (l, b) :: bs => k == l && beq a b && beqMembers as bs
  | _, _ => false

end

instance : BEq Value := ⟨beq⟩

mutual

/-- The sign that opens the first array or object with `room` or more of them around it. -/
def opensBeyond? : Nat → Value → Option Char
  | 0, array _ => some '['
  | 0, object _ => some '\x7b'
  | room + 1, array items => itemsBeyond? room items
  | room + 1, object members => membersBeyond? room members
  | _, _ => none

def itemsBeyond? (room : Nat) : List Value → Option Char
  | [] => none
  | item :: items => (opensBeyond? room item).or (itemsBeyond? room items)

def membersBeyond? (room : Nat) : List (String × Value) → Option Char
  | [] => none
  | (_, value) :: members => (opensBeyond? room value).or (membersBeyond? room members)

end

def int (n : Int) : Value := number (toString n)

def nat (n : Nat) : Value := number (toString n)

/-- A list of texts. -/
def strings (texts : List String) : Value := array (texts.map string)

mutual

/-- The normal form; none when a number is too large. Of members with one key the last counts. -/
def normal? : Value → Option Value
  | null => some null
  | bool b => some (bool b)
  | number literal => (Binary64.ofDecimal? (Decimal.ofNumeral literal.toList)).map fun b => number b.numeral
  | string text => some (string text)
  | array items => (normalItems? items).map array
  | object members => (normalMembers? members).map fun ms => object (Dict.ofList ms).entries

def normalItems? : List Value → Option (List Value)
  | [] => some []
  | item :: items => do return (← normal? item) :: (← normalItems? items)

def normalMembers? : List (String × Value) → Option (List (String × Value))
  | [] => some []
  | (key, value) :: members => do return (key, ← normal? value) :: (← normalMembers? members)

end

end Value

end ShopLint.Json
