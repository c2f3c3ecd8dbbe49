import ShopLint.Duration
import ShopLint.Instant
import ShopLint.Number.Decimal
import ShopLint.Text.Basic

/-!
The values of gate expressions: what they are equal to, how they are ordered, and how they turn into
one another. Whole numbers have 64 bits, and nothing wraps around: a result that does not fit is an
error.
-/

namespace ShopLint.Gate

/-- Why a gate expression has no value. -/
inductive EvalError
  | noSuchOverload
  | overflow
  | divisionByZero
  | noSuchKey
  | indexOutOfRange
  | badConversion
  | badPattern
  | unknownName
  deriving DecidableEq, Repr

def EvalError.message : EvalError → String
  | noSuchOverload => "no such overload"
  | overflow => "integer overflow"
  | divisionByZero => "division by zero"
  | noSuchKey => "no such key"
  | indexOutOfRange => "index out of bounds"
  | badConversion => "type conversion error"
  | badPattern => "error parsing regexp"
  | unknownName => "no such attribute"

/-- Times and lengths of time are in nanoseconds; a type is known by its name. -/
inductive Value
  | null
  | bool (b : Bool)
  | int (n : Int)
  | uint (n : Nat)
  | double (x : Float)
  | string (s : String)
  | bytes (b : List UInt8)
  | timestamp (n : Int)
  | duration (n : Int)
  | list (items : List Value)
  | map (entries : List (Value × Value))
  | type (name : String)

namespace Value

def typeName : Value → String
  | null => "null_type"
  | bool _ => "bool"
  | int _ => "int"
  | uint _ => "uint"
  | double _ => "double"
  | string _ => "string"
  | bytes _ => "bytes"
  | timestamp _ => "google.protobuf.Timestamp"
  | duration _ => "google.protobuf.Duration"
  | list _ => "list"
  | map _ => "map"
  | type _ => "type"

def intMin : Int := -(Word.signedLimit : Int)

/-- A whole number, if it fits. -/
def int? (n : Int) : Except EvalError Value :=
  if Word.isSigned n then .ok (int n) else .error .overflow

def uint? (n : Int) : Except EvalError Value :=
  if 0 ≤ n && n < Word.unsignedLimit then .ok (uint n.toNat) else .error .overflow

/-- The first and last second of the times that can be told. -/
def firstSecond : Int := -62135596800

def lastSecond : Int := 253402300799

def timestamp? (n : Int) : Except EvalError Value :=
  if firstSecond ≤ n.fdiv 1000000000 && n.fdiv 1000000000 ≤ lastSecond then .ok (timestamp n)
  else .error .overflow

def duration? (n : Int) : Except EvalError Value :=
  if Word.isSigned n then .ok (duration n) else .error .overflow

/-- The order of two floating numbers, of which neither may be undefined. -/
def compareDouble (x y : Float) : Except EvalError Ordering :=
  if x.isNaN || y.isNaN then .error .noSuchOverload
  else if x < y then .ok .lt
  else if y < x then .ok .gt
  else .ok .eq

/-- The order of a whole number and a floating one. -/
def compareMixed (n : Int) (x : Float) : Except EvalError Ordering :=
  if x.isNaN then .error .noSuchOverload
  else if 18446744073709551616.0 ≤ x then .ok .lt
  else if x < -9223372036854775808.0 then .ok .gt
  else compareDouble (Float.ofInt n) x

def compareBytes : List UInt8 → List UInt8 → Ordering
  | [], [] => .eq
  | [], _ => .lt
  | _, [] => .gt
  | a :: as, b :: bs => if a < b then .lt else if b < a then .gt else compareBytes as bs

/-- The order of two values of one kind, or of two numbers. -/
def compare? : Value → Value → Except EvalError Ordering
  | bool a, bool b => .ok (Ord.compare a.toNat b.toNat)
  | int a, int b => .ok (Ord.compare a b)
  | int a, uint b => .ok (Ord.compare a (b : Int))
  | uint a, int b => .ok (Ord.compare (a : Int) b)
  | uint a, uint b => .ok (Ord.compare a b)
  | int a, double y => compareMixed a y
  | uint a, double y => compareMixed a y
  | double x, int b => (compareMixed b x).map Ordering.swap
  | double x, uint b => (compareMixed b x).map Ordering.swap
  | double x, double y => compareDouble x y
  | string a, string b => .ok (if a < b then .lt else if b < a then .gt else .eq)
  | bytes a, bytes b => .ok (compareBytes a b)
  | timestamp a, timestamp b => .ok (Ord.compare a b)
  | duration a, duration b => .ok (Ord.compare a b)
  | _, _ => .error .noSuchOverload

/-- Equality of values that hold no others; numbers of different types may be equal. -/
def equalPlain : Value → Value → Bool
  | null, null => true
  | type a, type b => a = b
  | a, b =>
    match compare? a b with
    | .ok order => order = .eq
    | .error _ => false

mutual

def equal : Value → Value → Bool
  | list as, list bs => equalItems as bs
  | map as, map bs => as.length = bs.length && equalEntries as bs
  | a, b => equalPlain a b

def equalItems : List Value → List Value → Bool
  | [], [] => true
  | a :: as, b :: bs => equal a b && equalItems as bs
  | _, _ => false

/-- Every entry of the first list is one of the second. -/
def equalEntries : List (Value × Value) → List (Value × Value) → Bool
  | [], _ => true
  | (k, v) :: as, bs => hasEntry k v bs && equalEntries as bs

def hasEntry (k v : Value) : List (Value × Value) → Bool
  | [] => false
  | (k', v') :: bs => (equal k k' && equal v v') || hasEntry k v bs

end

/-- The value under a key. -/
def find? (entries : List (Value × Value)) (key : Value) : Option Value :=
  (entries.find? fun e => equal e.1 key).map Prod.snd

/-- Values that can be the key of a map. -/
def isKey : Value → Bool
  | bytes _ | list _ | map _ => false
  | _ => true

/-- The entries with one more; the last one of a key counts. -/
def putEntry (entries : List (Value × Value)) (key value : Value) : List (Value × Value) :=
  match entries with
  | [] => [(key, value)]
  | (k, v) :: rest =>
    if k.typeName = key.typeName && equal k key then (key, value) :: rest else (k, v) :: putEntry rest key value

/-- How many characters, bytes, items or entries a value has. -/
def size? : Value → Except EvalError Value
  | string s => .ok (int s.length)
  | bytes b => .ok (int b.length)
  | list items => .ok (int items.length)
  | map entries => .ok (int entries.length)
  | _ => .error .noSuchOverload

/-- The text of a floating number. -/
def doubleText (x : Float) : String :=
  if x.isNaN then "NaN"
  else if x.isInf then (if x < 0 then "-Inf" else "+Inf")
  else (Binary64.ofFloat x).general

/-- A length of time in seconds, with the fewest digits that read back. -/
def secondsText (n : Int) : String :=
  let size := Duration.fractional n.natAbs Duration.second ++ "s"
  if n < 0 then "-" ++ size else size

/-- A whole number in decimal digits, with an optional sign. -/
def parseInt? (s : String) : Option Int :=
  let (negative, digits) :=
    match s.toList with
    | '-' :: rest => (true, rest)
    | '+' :: rest => (false, rest)
    | rest => (false, rest)
  if digits.isEmpty || !digits.all Decimal.isDigitChar then none
  else
    let n : Int := Decimal.ofDigits digits
    some (if negative then -n else n)

/-- The text is a numeral with optional sign, fraction and exponent, and at least one digit. -/
def isNumeral (text : List Char) : Bool :=
  let text :=
    match text with
    | '-' :: rest => rest
    | '+' :: rest => rest
    | rest => rest
  let whole := text.takeWhile Decimal.isDigitChar
  let rest := text.drop whole.length
  let (fraction, rest) :=
    match rest with
    | '.' :: more => (more.takeWhile Decimal.isDigitChar, more.dropWhile Decimal.isDigitChar)
    | _ => ([], rest)
  let powerOk :=
    match rest with
    | [] => true
    | mark :: power =>
      let power :=
        match power with
        | '-' :: rest => rest
        | '+' :: rest => rest
        | rest => rest
      (mark = 'e' || mark = 'E') && !power.isEmpty && power.all Decimal.isDigitChar
  !(whole.isEmpty && fraction.isEmpty) && powerOk

/-- The names of the numbers that have no numeral. -/
def specialDoubles : List (String × Float) :=
  let inf := 1.0 / 0.0
  [("nan", 0.0 / 0.0), ("inf", inf), ("+inf", inf), ("-inf", -inf), ("infinity", inf),
    ("+infinity", inf), ("-infinity", -inf)]

def parseDouble? (s : String) : Option Float :=
  match specialDoubles.lookup (String.ofList (s.toList.map Char.toLower)) with
  | some x => some x
  | none =>
    if isNumeral s.toList then (Binary64.ofDecimal? (.ofNumeral s.toList)).map Binary64.toFloat else none

def orBad {α : Type} (found : Option α) (make : α → Except EvalError Value) : Except EvalError Value :=
  match found with
  | some a => make a
  | none => .error .badConversion

def toBool? : Value → Except EvalError Value
  | bool b => .ok (bool b)
  | string s => orBad (Text.parseBool? s) fun b => .ok (bool b)
  | _ => .error .noSuchOverload

def toBytes? : Value → Except EvalError Value
  | bytes b => .ok (bytes b)
  | string s => .ok (bytes s.toUTF8.toList)
  | _ => .error .noSuchOverload

def toDouble? : Value → Except EvalError Value
  | double x => .ok (double x)
  | int n => .ok (double (Float.ofInt n))
  | uint n => .ok (double (Float.ofNat n))
  | string s => orBad (parseDouble? s) fun x => .ok (double x)
  | _ => .error .noSuchOverload

/-- The whole part of a floating number, which must have one. -/
def truncated (x : Float) : Int :=
  let b := Binary64.ofFloat x
  let p := Binary64.scale2 b.mantissa b.exponent
  let n : Int := (p.1 / p.2 : Nat)
  if b.negative then -n else n

def toInt? : Value → Except EvalError Value
  | int n => .ok (int n)
  | uint n => int? n
  | double x =>
    if x.isNaN || x.isInf || x ≤ -9223372036854775808.0 || 9223372036854775808.0 ≤ x then .error .overflow
    else .ok (int (truncated x))
  | duration n => .ok (int n)
  | timestamp n => .ok (int (n.fdiv 1000000000))
  | string s => orBad (parseInt? s) int?
  | _ => .error .noSuchOverload

def toUint? : Value → Except EvalError Value
  | uint n => .ok (uint n)
  | int n => uint? n
  | double x =>
    if x.isNaN || x.isInf || x < 0 || 18446744073709551616.0 ≤ x then .error .overflow
    else .ok (uint (truncated x).toNat)
  | string s =>
    if s.toList.all Decimal.isDigitChar then orBad (parseInt? s) uint? else .error .badConversion
  | _ => .error .noSuchOverload

def toDuration? : Value → Except EvalError Value
  | duration n => .ok (duration n)
  | int n => .ok (duration n)
  | string s => orBad (Duration.parse? s) fun n => .ok (duration n)
  | _ => .error .noSuchOverload

def toTimestamp? : Value → Except EvalError Value
  | timestamp n => .ok (timestamp n)
  | int n => timestamp? (n * 1000000000)
  | string s => orBad (Instant.parse? s) fun t => timestamp? t.toNanoseconds
  | _ => .error .noSuchOverload

def toString? : Value → Except EvalError Value
  | string s => .ok (string s)
  | bool b => .ok (string (if b then "true" else "false"))
  | int n => .ok (string (toString n))
  | uint n => .ok (string (toString n))
  | double x => .ok (string (doubleText x))
  | bytes b => orBad (String.fromUTF8? (ByteArray.mk b.toArray)) fun s => .ok (string s)
  | duration n => .ok (string (secondsText n))
  | timestamp n => .ok (string (Instant.ofNanoseconds n).text)
  | type name => .ok (string name)
  | _ => .error .noSuchOverload

end Value

end ShopLint.Gate
