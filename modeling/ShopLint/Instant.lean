import ShopLint.Number.Decimal

/-!
Points in time as calendars and clocks show them, with the offset of the clock, and their text forms.
-/

namespace ShopLint

/-- A date and time of day. `offset` is how many minutes the clock is ahead of universal time. -/
structure Instant where
  year : Nat
  month : Nat
  day : Nat
  hour : Nat
  minute : Nat
  second : Nat
  nanosecond : Nat
  offset : Int
  deriving DecidableEq, Repr

namespace Instant

/-- The start of the first year, which stands for a missing time. -/
def zero : Instant := ⟨1, 1, 1, 0, 0, 0, 0, 0⟩

instance : Inhabited Instant := ⟨zero⟩

def isLeap (year : Nat) : Bool := year % 4 = 0 && (year % 100 ≠ 0 || year % 400 = 0)

def daysIn (year month : Nat) : Nat :=
  if month = 2 then (if isLeap year then 29 else 28)
  else if month ∈ [4, 6, 9, 11] then 30 else 31

/-- `n` in at least `width` digits. -/
def padded (width n : Nat) : List Char :=
  let digits := (toString n).toList
  List.replicate (width - digits.length) '0' ++ digits

/-- The fraction of a second without trailing zeros; nothing for a whole second. -/
def fractionText (nanosecond : Nat) : List Char :=
  if nanosecond = 0 then []
  else '.' :: ((padded 9 nanosecond).reverse.dropWhile (· = '0')).reverse

def offsetText (offset : Int) : List Char :=
  if offset = 0 then ['Z']
  else
    [if offset < 0 then '-' else '+'] ++ padded 2 (offset.natAbs / 60) ++ [':'] ++
      padded 2 (offset.natAbs % 60)

/-- Date, `T`, time and offset, as in `2024-03-01T14:05:09Z`. -/
def text (t : Instant) : String :=
  String.ofList (padded 4 t.year ++ ['-'] ++ padded 2 t.month ++ ['-'] ++ padded 2 t.day ++ ['T'] ++
    padded 2 t.hour ++ [':'] ++ padded 2 t.minute ++ [':'] ++ padded 2 t.second ++
    fractionText t.nanosecond ++ offsetText t.offset)

/-- A number of exactly `width` digits. -/
def number? (width : Nat) (text : List Char) : Option (Nat × List Char) :=
  let digits := text.take width
  if digits.length = width && digits.all Decimal.isDigitChar then
    some (Decimal.ofDigits digits, text.drop width)
  else none

/-- An hour of one or two digits. -/
def hour? (text : List Char) : Option (Nat × List Char) :=
  match number? 2 text with
  | some r => some r
  | none => number? 1 text

def char? (c : Char) : List Char → Option (List Char)
  | [] => none
  | d :: ds => if d = c then some ds else none

/-- A fraction of a second, after a point or comma; digits beyond the ninth are dropped. -/
def fraction? (text : List Char) : Option (Nat × List Char) :=
  match text with
  | [] => some (0, [])
  | c :: cs =>
    if c = '.' || c = ',' then
      let digits := cs.takeWhile Decimal.isDigitChar
      if digits.isEmpty then none
      else
        let nine := digits.take 9
        some (Decimal.ofDigits (nine ++ List.replicate (9 - nine.length) '0'), cs.drop digits.length)
    else some (0, c :: cs)

/-- `Z` or a signed offset in hours and minutes, at the end of the text. -/
def offset? (text : List Char) : Option Int :=
  match text with
  | ['Z'] => some 0
  | sign :: rest => do
    let (hours, rest) ← number? 2 rest
    let (minutes, rest) ← number? 2 (← char? ':' rest)
    if !rest.isEmpty || 24 < hours || 60 < minutes then none
    else if sign = '+' then some (60 * hours + minutes : Nat)
    else if sign = '-' then some (-(60 * hours + minutes : Nat))
    else none
  | [] => none

/-- The time that a text of the form of `Instant.text` stands for. -/
def parse? (text : String) : Option Instant := do
  let (year, rest) ← number? 4 text.toList
  let (month, rest) ← number? 2 (← char? '-' rest)
  let (day, rest) ← number? 2 (← char? '-' rest)
  let (hour, rest) ← hour? (← char? 'T' rest)
  let (minute, rest) ← number? 2 (← char? ':' rest)
  let (second, rest) ← number? 2 (← char? ':' rest)
  let (nanosecond, rest) ← fraction? rest
  let offset ← offset? rest
  if month = 0 || 12 < month || day = 0 || daysIn year month < day || 23 < hour || 59 < minute ||
      59 < second then none
  else some ⟨year, month, day, hour, minute, second, nanosecond, offset⟩

/-- The day before or after, across the ends of months and years. -/
def shiftDay (t : Instant) (forward : Bool) : Instant :=
  if forward then
    if t.day < daysIn t.year t.month then { t with day := t.day + 1 }
    else if t.month < 12 then { t with month := t.month + 1, day := 1 }
    else { t with year := t.year + 1, month := 1, day := 1 }
  else if 1 < t.day then { t with day := t.day - 1 }
  else if 1 < t.month then { t with month := t.month - 1, day := daysIn t.year (t.month - 1) }
  else { t with year := t.year - 1, month := 12, day := 31 }

/-- The same time on a clock of universal time. -/
def toUniversal (t : Instant) : Instant :=
  let minutes : Int := (60 * t.hour + t.minute : Nat) - t.offset
  let day := minutes.fdiv 1440
  let rest := (minutes.fmod 1440).toNat
  let t := { t with hour := rest / 60, minute := rest % 60, offset := 0 }
  if day = 0 then t else t.shiftDay (0 < day)

/-- Days from the start of the first year to the start of a date. -/
def dayNumber (year month day : Nat) : Nat :=
  let before := year - 1
  365 * before + before / 4 - before / 100 + before / 400 +
    ((List.range' 1 (month - 1)).map (daysIn year)).foldr (· + ·) 0 + (day - 1)

/-- The day on which clocks start to count seconds. -/
def epochDay : Nat := dayNumber 1970 1 1

def secondsPerDay : Nat := 86400

/-- Nanoseconds since the start of 1970 in universal time. -/
def toNanoseconds (t : Instant) : Int :=
  let days : Int := (dayNumber t.year t.month t.day : Int) - epochDay
  let seconds : Int := days * secondsPerDay + (3600 * t.hour + 60 * t.minute + t.second : Nat) - 60 * t.offset
  seconds * 1000000000 + t.nanosecond

/-- The month and day of a day counted from the start of the year, from zero. -/
def monthAndDay (year : Nat) (fuel month rest : Nat) : Nat × Nat :=
  match fuel with
  | 0 => (month, rest + 1)
  | fuel + 1 =>
    if rest < daysIn year month then (month, rest + 1)
    else monthAndDay year fuel (month + 1) (rest - daysIn year month)

/-- The date of a day counted from the start of the first year. -/
def dateOfDay (day : Nat) : Nat × Nat × Nat :=
  let cycles := day / 146097
  let rest := day % 146097
  let centuries := min 3 (rest / 36524)
  let rest := rest - centuries * 36524
  let fours := rest / 1461
  let rest := rest % 1461
  let years := min 3 (rest / 365)
  let rest := rest - years * 365
  let year := 400 * cycles + 100 * centuries + 4 * fours + years + 1
  (year, monthAndDay year 11 1 rest)

/-- The time in universal time that lies so many nanoseconds after the start of 1970. -/
def ofNanoseconds (n : Int) : Instant :=
  let seconds := n.fdiv 1000000000
  let nanosecond := (n.fmod 1000000000).toNat
  let day := (seconds.fdiv secondsPerDay + epochDay).toNat
  let rest := (seconds.fmod secondsPerDay).toNat
  let (year, month, date) := dateOfDay day
  ⟨year, month, date, rest / 3600, rest % 3600 / 60, rest % 60, nanosecond, 0⟩

def monthName (month : Nat) : String :=
  ["January", "February", "March", "April", "May", "June", "July", "August", "September", "October",
    "November", "December"].getD (month - 1) ""

/-- A day of the month with its ordinal ending. -/
def ordinal (day : Int) : String :=
  let ending :=
    if day ∈ [1, 21, 31] then "st" else if day ∈ [2, 22] then "nd" else if day ∈ [3, 23] then "rd" else "th"
  s!"{day}{ending}"

/-- The form for readers, as in `1st March 2024 2:05:09 pm`. -/
def spoken (t : Instant) : String :=
  let hour := if t.hour % 12 = 0 then 12 else t.hour % 12
  let minute := String.ofList (padded 2 t.minute)
  let second := String.ofList (padded 2 t.second)
  let half := if t.hour < 12 then "am" else "pm"
  s!"{ordinal t.day} {monthName t.month} {t.year} {hour}:{minute}:{second} {half}"

end Instant

end ShopLint
