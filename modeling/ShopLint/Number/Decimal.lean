/-!
Whole numbers in words of 64 bits, decimal numerals as exact numbers, and the binary numbers of 53 bits
nearest to them. All arithmetic is on natural numbers.
-/

namespace ShopLint

namespace Word

/-- One more than the largest number in a word with a sign. -/
def signedLimit : Nat := 0x8000000000000000

/-- One more than the largest number in a word without a sign. -/
def unsignedLimit : Nat := 0x10000000000000000

/-- The number fits in a word with a sign. -/
def isSigned (n : Int) : Bool := -(signedLimit : Int) ≤ n && n < signedLimit

theorem isSigned_iff {n : Int} : isSigned n ↔ -9223372036854775808 ≤ n ∧ n < 9223372036854775808 := by
  rw [isSigned, Bool.and_eq_true, decide_eq_true_iff, decide_eq_true_iff]
  rfl

end Word

/-- The number `± digits · 10 ^ exponent`. -/
structure Decimal where
  negative : Bool
  digits : Nat
  exponent : Int
  deriving DecidableEq, Repr

namespace Decimal

def digitValue (c : Char) : Nat := c.toNat - '0'.toNat

def ofDigits (digits : List Char) : Nat := digits.foldl (fun n c => 10 * n + digitValue c) 0

def isDigitChar (c : Char) : Bool := '0' ≤ c && c ≤ '9'

/-- The exponent part of a numeral after its mark, with an optional sign. -/
def exponentOf : List Char → Int
  | '-' :: digits => -(ofDigits digits : Int)
  | '+' :: digits => ofDigits digits
  | digits => ofDigits digits

/-- The number that a numeral with optional sign, fraction and exponent stands for. -/
def ofNumeral (text : List Char) : Decimal :=
  let (negative, text) :=
    match text with
    | '-' :: cs => (true, cs)
    | '+' :: cs => (false, cs)
    | cs => (false, cs)
  let whole := text.takeWhile isDigitChar
  let text := text.dropWhile isDigitChar
  let (fraction, text) :=
    match text with
    | '.' :: cs => (cs.takeWhile isDigitChar, cs.dropWhile isDigitChar)
    | cs => ([], cs)
  let exponent :=
    match text with
    | [] => 0
    | _ :: cs => exponentOf cs
  ⟨negative, ofDigits (whole ++ fraction), exponent - fraction.length⟩

end Decimal

/-- `numerator / denominator` to the nearest natural number, a half to the even one. -/
def roundHalfEven (numerator denominator : Nat) : Nat :=
  let q := numerator / denominator
  let r := numerator % denominator
  if 2 * r < denominator then q
  else if denominator < 2 * r then q + 1
  else if q % 2 = 0 then q else q + 1

/-- A binary number `± mantissa · 2 ^ exponent` of at most 53 bits. -/
structure Binary64 where
  negative : Bool
  mantissa : Nat
  exponent : Int
  deriving DecidableEq, Repr

namespace Binary64

/-- The first of the 53 bits. -/
def leadingBit : Nat := 0x10000000000000

/-- `n · 2 ^ e` as a fraction, for any sign of `e`. -/
def scale2 (n : Nat) (e : Int) : Nat × Nat :=
  if 0 ≤ e then (n * Nat.pow 2 e.toNat, 1) else (n, Nat.pow 2 (-e).toNat)

/-- The largest `e` with `2 ^ e ≤ numerator / denominator`, for a positive fraction. -/
def floorLog2 (numerator denominator : Nat) : Int :=
  let guess : Int := (Nat.log2 numerator : Int) - Nat.log2 denominator
  let p := scale2 denominator guess
  if p.1 ≤ numerator * p.2 then guess else guess - 1

/-- The binary number nearest to a positive fraction; none when it is too large. -/
def ofFraction? (negative : Bool) (numerator denominator : Nat) : Option Binary64 :=
  let e := max (floorLog2 numerator denominator - 52) (-1074)
  let p := scale2 1 e
  let m := roundHalfEven (numerator * p.2) (denominator * p.1)
  let (m, e) := if m = 2 * leadingBit then (leadingBit, e + 1) else (m, e)
  if 971 < e then none else some ⟨negative, m, e⟩

/-- The binary number nearest to a decimal; none when it is too large. A decimal far below the
smallest binary number is taken for zero without computing it. -/
def ofDecimal? (d : Decimal) : Option Binary64 :=
  if d.digits = 0 then some ⟨d.negative, 0, 0⟩
  else
    let size : Int := (toString d.digits).length + d.exponent
    if 400 < size then none
    else if size < -400 then some ⟨d.negative, 0, 0⟩
    else if 0 ≤ d.exponent then ofFraction? d.negative (d.digits * Nat.pow 10 d.exponent.toNat) 1
    else ofFraction? d.negative d.digits (Nat.pow 10 (-d.exponent).toNat)

/-- The fewest digits that read back as the same number, as `digits · 10 ^ exponent`: of two such
numbers with equally many digits the nearer one. -/
structure Shortest where
  digits : Nat
  exponent : Int

/-- `10 ^ e` as a fraction. -/
def power10 (e : Int) : Nat × Nat :=
  if 0 ≤ e then (Nat.pow 10 e.toNat, 1) else (1, Nat.pow 10 (-e).toNat)

/-- The fractions whose nearest binary number this is lie between these two. -/
def bounds (b : Binary64) : (Nat × Nat) × (Nat × Nat) :=
  let lower :=
    if b.mantissa = leadingBit && -1074 < b.exponent then scale2 (4 * b.mantissa - 1) (b.exponent - 2)
    else scale2 (2 * b.mantissa - 1) (b.exponent - 1)
  (lower, scale2 (2 * b.mantissa + 1) (b.exponent - 1))

def ratLe (a b : Nat × Nat) : Bool := a.1 * b.2 ≤ b.1 * a.2

def ratLt (a b : Nat × Nat) : Bool := a.1 * b.2 < b.1 * a.2

/-- The decimal `digits · 10 ^ e` reads back as `b`. -/
def readsBack (b : Binary64) (digits : Nat) (e : Int) : Bool :=
  let p := power10 e
  let x := (digits * p.1, p.2)
  let (lo, hi) := b.bounds
  if b.mantissa % 2 = 0 then ratLe lo x && ratLe x hi else ratLt lo x && ratLt x hi

/-- Tries `count` digits and more, up to 17, for a number of decimal order `order`. -/
def shortestFrom (b : Binary64) (order : Int) : Nat → Nat → Shortest
  | 0, _ => ⟨0, 0⟩
  | tries + 1, count =>
    let e := order - count + 1
    let v := scale2 b.mantissa b.exponent
    let p := power10 e
    let floor := v.1 * p.2 / (v.2 * p.1)
    let low := b.readsBack floor e
    let high := b.readsBack (floor + 1) e
    let nearer := roundHalfEven (v.1 * p.2) (v.2 * p.1)
    if low && high then ⟨nearer, e⟩
    else if low then ⟨floor, e⟩
    else if high then ⟨floor + 1, e⟩
    else shortestFrom b order tries (count + 1)

/-- The decimal order of a positive fraction: the largest `k` with `10 ^ k` not above it. The search
goes up from a guess that is never too large. -/
def decimalOrder (v : Nat × Nat) : Int :=
  let guess : Int := ((toString v.1).length : Int) - (toString v.2).length - 1
  if ratLe (power10 (guess + 1)) v then guess + 1 else guess

/-- Zeros at the end of the digits moved into the exponent. -/
def stripZeros (fuel : Nat) (s : Shortest) : Shortest :=
  match fuel with
  | 0 => s
  | fuel + 1 => if s.digits ≠ 0 && s.digits % 10 = 0 then stripZeros fuel ⟨s.digits / 10, s.exponent + 1⟩ else s

def shortest (b : Binary64) : Shortest :=
  if b.mantissa = 0 then ⟨0, 0⟩
  else stripZeros 20 (shortestFrom b (decimalOrder (scale2 b.mantissa b.exponent)) 17 1)

/-- The digits with the point after the first `whole` of them; `whole` may lie outside. -/
def positional (digits : List Char) (whole : Int) : List Char :=
  if whole ≤ 0 then ['0', '.'] ++ List.replicate (-whole).toNat '0' ++ digits
  else if digits.length ≤ whole.toNat then digits ++ List.replicate (whole.toNat - digits.length) '0'
  else digits.take whole.toNat ++ ['.'] ++ digits.drop whole.toNat

/-- One digit before the point, then the exponent with its sign. -/
def scientific (digits : List Char) (order : Int) : List Char :=
  let fraction := digits.drop 1
  digits.take 1 ++ (if fraction.isEmpty then [] else '.' :: fraction) ++ ['e'] ++
    (if order < 0 then '-' :: (toString order.natAbs).toList else '+' :: (toString order.natAbs).toList)

/-- The numeral of a number in JSON text: the fewest digits that read back, with an exponent only for
orders below -6 and from 21 on. -/
def numeral (b : Binary64) : String :=
  let s := b.shortest
  let digits := (toString s.digits).toList
  let order : Int := s.exponent + digits.length - 1
  let text :=
    if s.digits = 0 then ['0']
    else if order < -6 || 21 ≤ order then scientific digits order
    else positional digits (order + 1)
  String.ofList (if b.negative then '-' :: text else text)

/-- The numeral of a number in messages: the fewest digits that read back, with an exponent of at least
two digits for orders below -4 and from 6 on. -/
def general (b : Binary64) : String :=
  let s := b.shortest
  let digits := (toString s.digits).toList
  let order : Int := s.exponent + digits.length - 1
  let fraction := digits.drop 1
  let text :=
    if s.digits = 0 then ['0']
    else if order < -4 || 6 ≤ order then
      digits.take 1 ++ (if fraction.isEmpty then [] else '.' :: fraction) ++
        ['e', if order < 0 then '-' else '+'] ++ (if order.natAbs < 10 then ['0'] else []) ++
        (toString order.natAbs).toList
    else positional digits (order + 1)
  String.ofList (if b.negative then '-' :: text else text)

/-- The machine number of the same value. -/
def toFloat (b : Binary64) : Float :=
  let size := (Float.ofNat b.mantissa).scaleB b.exponent
  if b.negative then -size else size

/-- The binary number of a finite machine number. -/
def ofFloat (x : Float) : Binary64 :=
  let bits : Nat := x.toBits.toNat
  let fraction : Nat := bits % leadingBit
  let exponent : Nat := bits / leadingBit % 0x800
  if exponent = 0 then ⟨Word.signedLimit ≤ bits, fraction, -1074⟩
  else ⟨Word.signedLimit ≤ bits, leadingBit + fraction, (exponent : Int) - 1075⟩

end Binary64

end ShopLint
