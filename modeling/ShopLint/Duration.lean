import ShopLint.Number.Decimal

/-!
Lengths of time in nanoseconds, and their text as numbers with units.
-/

namespace ShopLint.Duration

def nanosecond : Nat := 1

def microsecond : Nat := 1000

def millisecond : Nat := 1000000

def second : Nat := 1000000000

def minute : Nat := 60 * second

def hour : Nat := 60 * minute

/-- The units by name; the micro sign and the Greek letter both count. -/
def units : List (String × Nat) := [("ns", nanosecond), ("us", microsecond), ("\u00b5s", microsecond),
  ("\u03bcs", microsecond), ("ms", millisecond), ("s", second), ("m", minute), ("h", hour)]

/-- The digits after a point as a whole number, and how many they are. Those that do not fit in a word
are left out. -/
def fractionOf (digits : List Char) : Nat × Nat :=
  let (n, count, _) := digits.foldl (fun (n, count, full) c =>
    let more := 10 * n + (c.toNat - 0x30)
    if full || (Word.signedLimit - 1) / 10 < n || Word.signedLimit < more then (n, count, true)
    else (more, count + 1, false)) (0, 0, false)
  (n, count)

/-- A fraction of a unit in nanoseconds, computed in binary floating point. -/
def fractionOfUnit (digits : List Char) (unit : Nat) : Nat :=
  let (n, count) := fractionOf digits
  (Float.ofNat n * (Float.ofNat unit / Float.ofNat (Nat.pow 10 count))).toUInt64.toNat

/-- One number with its unit, in nanoseconds, and the rest of the text. -/
def part? (text : List Char) : Option (Nat × List Char) := do
  let whole := text.takeWhile Decimal.isDigitChar
  let rest := text.drop whole.length
  let (fraction, rest) :=
    match rest with
    | '.' :: more => (more.takeWhile Decimal.isDigitChar, more.dropWhile Decimal.isDigitChar)
    | _ => ([], rest)
  if whole.isEmpty && fraction.isEmpty then none
  else
    let name := rest.takeWhile fun c => c ≠ '.' && !Decimal.isDigitChar c
    let unit ← units.lookup (String.ofList name)
    let n := Decimal.ofDigits whole * unit + fractionOfUnit fraction unit
    if Word.signedLimit < n then none else some (n, rest.drop name.length)

/-- The sum of all parts of a text; `fuel` bounds their number. -/
def parts? : Nat → List Char → Option Nat
  | _, [] => some 0
  | 0, _ => none
  | fuel + 1, text => do
    let (n, rest) ← part? text
    let total := n + (← parts? fuel rest)
    if Word.signedLimit < total then none else some total

/-- The length that a text such as `1h30m` or `-1.5s` stands for, in nanoseconds. -/
def parse? (text : String) : Option Int :=
  let (negative, rest) :=
    match text.toList with
    | '-' :: rest => (true, rest)
    | '+' :: rest => (false, rest)
    | rest => (false, rest)
  if rest = ['0'] then some 0
  else if rest.isEmpty then none
  else do
    let n ← parts? rest.length rest
    if negative then some (-(n : Int)) else if n = Word.signedLimit then none else some n

/-- `n` units of which `scale` make a whole, without trailing zeros. -/
def fractional (n scale : Nat) : String :=
  let digits := (toString (scale + n % scale)).toList.drop 1
  let fraction := (digits.reverse.dropWhile (· = '0')).reverse
  toString (n / scale) ++ (if fraction.isEmpty then "" else "." ++ String.ofList fraction)

/-- A length as text: whole hours and minutes, then seconds; below a second the largest unit that
fits. -/
def text (nanoseconds : Int) : String :=
  let n := nanoseconds.natAbs
  let size :=
    if n = 0 then "0s"
    else if n < microsecond then fractional n 1 ++ "ns"
    else if n < millisecond then fractional n microsecond ++ "\u00b5s"
    else if n < second then fractional n millisecond ++ "ms"
    else
      let seconds := fractional (n % minute) second ++ "s"
      if n < minute then seconds
      else if n < hour then s!"{n / minute}m{seconds}"
      else s!"{n / hour}h{n % hour / minute}m{seconds}"
  if nanoseconds < 0 then "-" ++ size else size

end ShopLint.Duration
