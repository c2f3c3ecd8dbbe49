import ShopLint.Pattern.Basic
import ShopLint.Text.Chars

/-!
Reading regular expressions: groups, alternatives, repetition with and without counts, character
classes, escapes and the flags `i`, `m`, `s` and `U`.
-/

namespace ShopLint.Pattern

structure Flags where
  anyCase : Bool := false
  multiline : Bool := false
  dotAll : Bool := false
  deriving DecidableEq, Repr

/-- The largest count of a repetition, also of nested ones together. -/
def maxRepeat : Nat := 1000

def maxCode : Nat := 0x10ffff

def digitRanges : List (Nat × Nat) := [(0x30, 0x39)]

def spaceRanges : List (Nat × Nat) := [(0x09, 0x0a), (0x0c, 0x0d), (0x20, 0x20)]

def wordRanges : List (Nat × Nat) := [(0x30, 0x39), (0x41, 0x5a), (0x5f, 0x5f), (0x61, 0x7a)]

/-- The class that a letter after a backslash names. -/
def letterClass? : Char → Option CharClass
  | 'd' => some ⟨digitRanges, false⟩
  | 'D' => some ⟨digitRanges, true⟩
  | 's' => some ⟨spaceRanges, false⟩
  | 'S' => some ⟨spaceRanges, true⟩
  | 'w' => some ⟨wordRanges, false⟩
  | 'W' => some ⟨wordRanges, true⟩
  | _ => none

/-- The classes that have a name inside brackets. -/
def namedRanges : List (String × List (Nat × Nat)) := [
  ("alnum", [(0x30, 0x39), (0x41, 0x5a), (0x61, 0x7a)]),
  ("alpha", [(0x41, 0x5a), (0x61, 0x7a)]),
  ("ascii", [(0x00, 0x7f)]),
  ("blank", [(0x09, 0x09), (0x20, 0x20)]),
  ("cntrl", [(0x00, 0x1f), (0x7f, 0x7f)]),
  ("digit", digitRanges),
  ("graph", [(0x21, 0x7e)]),
  ("lower", [(0x61, 0x7a)]),
  ("print", [(0x20, 0x7e)]),
  ("punct", [(0x21, 0x2f), (0x3a, 0x40), (0x5b, 0x60), (0x7b, 0x7e)]),
  ("space", [(0x09, 0x0d), (0x20, 0x20)]),
  ("upper", [(0x41, 0x5a)]),
  ("word", wordRanges),
  ("xdigit", [(0x30, 0x39), (0x41, 0x46), (0x61, 0x66)])]

def hexValue? (c : Char) : Option Nat :=
  if '0' ≤ c ∧ c ≤ '9' then some (c.toNat - 0x30)
  else if 'a' ≤ c ∧ c ≤ 'f' then some (c.toNat - 0x57)
  else if 'A' ≤ c ∧ c ≤ 'F' then some (c.toNat - 0x37)
  else none

def isOctal (c : Char) : Bool := '0' ≤ c && c ≤ '7'

/-- The value of some digits, and the rest of the text. -/
def octal? (text : List Char) : Nat × List Char :=
  let digits := (text.take 3).takeWhile isOctal
  (digits.foldl (fun n c => 8 * n + (c.toNat - 0x30)) 0, text.drop digits.length)

/-- The code point of hexadecimal digits up to a closing brace. -/
def bracedHex? (text : List Char) : Option (Nat × List Char) := do
  let digits := text.takeWhile (· ≠ '\x7d')
  let values ← digits.mapM hexValue?
  let code := values.foldl (fun n v => 16 * n + v) 0
  match text.drop digits.length with
  | _ :: rest => if digits.isEmpty || maxCode < code then none else some (code, rest)
  | [] => none

/-- The code point that an escape stands for, read after its backslash. -/
def escape? : List Char → Option (Nat × List Char)
  | [] => none
  | 'a' :: rest => some (0x07, rest)
  | 'f' :: rest => some (0x0c, rest)
  | 'n' :: rest => some (0x0a, rest)
  | 'r' :: rest => some (0x0d, rest)
  | 't' :: rest => some (0x09, rest)
  | 'v' :: rest => some (0x0b, rest)
  | 'x' :: '\x7b' :: rest => bracedHex? rest
  | 'x' :: a :: b :: rest => do return (16 * (← hexValue? a) + (← hexValue? b), rest)
  | c :: rest =>
    if c = '0' then some (octal? (c :: rest))
    else if isOctal c then
      match rest with
      | d :: _ => if isOctal d then some (octal? (c :: rest)) else none
      | [] => none
    else if c.toNat < 0x80 && !c.isAlphanum then some (c.toNat, rest)
    else none

/-- One character of a class in brackets. -/
def classChar? : List Char → Option (Nat × List Char)
  | [] => none
  | '\\' :: rest => escape? rest
  | c :: rest => some (c.toNat, rest)

/-- A class with a name, read after `[:`; the outer result is `none` when no name is closed. -/
def namedClass? (text : List Char) : Option (Option (CharClass × List Char)) :=
  (Chars.cut [':', ']'] text).map fun (name, rest) =>
    let (negated, name) :=
      match name with
      | '^' :: name => (true, name)
      | name => (false, name)
    (namedRanges.lookup (String.ofList name)).map fun ranges => (⟨ranges, negated⟩, rest)

/-- A single character or a range of them. -/
def classRange? (text : List Char) : Option (CharClass × List Char) := do
  let (low, rest) ← classChar? text
  match rest with
  | '-' :: c :: more =>
    if c = ']' then some (⟨[(low, low)], false⟩, rest)
    else
      let (high, rest) ← classChar? (c :: more)
      if high < low then none else some (⟨[(low, high)], false⟩, rest)
  | _ => some (⟨[(low, low)], false⟩, rest)

/-- One item of a class in brackets. -/
def classItem? (text : List Char) : Option (CharClass × List Char) :=
  match text with
  | '[' :: ':' :: rest =>
    match namedClass? rest with
    | some found => found
    | none => classRange? text
  | '\\' :: c :: rest =>
    match letterClass? c with
    | some k => some (k, rest)
    | none => classRange? text
  | _ => classRange? text

/-- The items of a class up to its closing bracket; a bracket that comes `first` is an item. `fuel`
bounds their number. -/
def classItems? : Nat → Bool → List Char → Option (List CharClass × List Char)
  | 0, _, _ => none
  | _, false, ']' :: rest => some ([], rest)
  | fuel + 1, _, text => do
    let (item, rest) ← classItem? text
    let (items, rest) ← classItems? fuel false rest
    return (item :: items, rest)

/-- A class, read after its opening bracket. -/
def class? (flags : Flags) (text : List Char) : Option (CharSet × List Char) :=
  let (negated, text) :=
    match text with
    | '^' :: rest => (true, rest)
    | _ => (false, text)
  (classItems? (text.length + 1) true text).map fun (items, rest) =>
    (⟨items, negated, flags.anyCase⟩, rest)

def literal (flags : Flags) (code : Nat) : Pattern := one ⟨[⟨[(code, code)], false⟩], false, flags.anyCase⟩

def dot (flags : Flags) : Pattern :=
  if flags.dotAll then one ⟨[⟨[(0, maxCode)], false⟩], false, false⟩ else one ⟨[⟨[(0x0a, 0x0a)], true⟩], false, false⟩

/-- The count of a repetition: its least and, unless it is open, its largest number. -/
structure Count where
  least : Nat
  most : Option Nat

/-- A number without leading zeros. -/
def count? (text : List Char) : Option (Nat × List Char) :=
  let digits := text.takeWhile (fun c => '0' ≤ c && c ≤ '9')
  match digits with
  | [] => none
  | '0' :: _ :: _ => none
  | _ => some (digits.foldl (fun n c => 10 * n + (c.toNat - 0x30)) 0, text.drop digits.length)

/-- A count, read after its opening brace; `none` when the brace stands for itself. -/
def braces? (text : List Char) : Option (Count × List Char) := do
  let (least, rest) ← count? text
  match rest with
  | '\x7d' :: rest => return (⟨least, some least⟩, rest)
  | ',' :: '\x7d' :: rest => return (⟨least, none⟩, rest)
  | ',' :: rest =>
    let (most, rest) ← count? rest
    match rest with
    | '\x7d' :: rest => return (⟨least, some most⟩, rest)
    | _ => none
  | _ => none

/-- A part of a sequence, with the largest number of repetitions nested in it. -/
structure Item where
  pattern : Pattern
  weight : Nat := 1

def Item.repeated (item : Item) (count : Count) : Option Item :=
  let top := count.most.getD count.least
  let weight := item.weight * max 1 top
  if maxRepeat < count.least || maxRepeat < top || top < count.least then none
  else if 2 ≤ top && maxRepeat < weight then none
  else
    match count.most with
    | some most => some ⟨item.pattern.times count.least (most - count.least), weight⟩
    | none => some ⟨item.pattern.atLeast count.least, weight⟩

/-- The flags of a group up to `:` or `)`, with whether the group goes on. A minus clears those after
it, and needs one. -/
def flags? (flags : Flags) (on : Bool) (pending : Bool) : List Char → Option (Flags × Bool × List Char)
  | [] => none
  | 'i' :: rest => flags? { flags with anyCase := on } on false rest
  | 'm' :: rest => flags? { flags with multiline := on } on false rest
  | 's' :: rest => flags? { flags with dotAll := on } on false rest
  | 'U' :: rest => flags? flags on false rest
  | '-' :: rest => if on then flags? flags false true rest else none
  | ':' :: rest => if pending then none else some (flags, true, rest)
  | ')' :: rest => if pending then none else some (flags, false, rest)
  | _ => none

/-- The name of a group up to `>`. -/
def groupName? (text : List Char) : Option (String × List Char) := do
  let (name, rest) ← Chars.cut ['>'] text
  if name.isEmpty || !name.all isWord then none else some (String.ofList name, rest)

/-- The parts of a group read so far: finished alternatives and the present sequence, both with the
last first. -/
structure Group where
  alternatives : List Item := []
  items : List Item := []

def Group.sequence (g : Group) : Item :=
  ⟨g.items.reverse.foldr (fun item p => if p = nothing then item.pattern else seq item.pattern p) nothing,
    (g.items.map Item.weight).foldl max 1⟩

def Group.close (g : Group) : Item :=
  g.alternatives.foldl (fun later earlier =>
    ⟨either earlier.pattern later.pattern, max earlier.weight later.weight⟩) g.sequence

def Group.push (g : Group) (item : Item) : Group := { g with items := item :: g.items }

def Group.add (g : Group) (p : Pattern) : Group := g.push ⟨p, 1⟩

/-- The group with its last item repeated, and the text after an optional `?`. -/
def Group.repeatLast (g : Group) (count : Count) (rest : List Char) : Option (Group × List Char) :=
  match g.items with
  | [] => none
  | item :: items => do
    let item ← item.repeated count
    let rest :=
      match rest with
      | '?' :: more => more
      | _ => rest
    return ({ g with items := item :: items }, rest)

/-- The literal text between `\Q` and `\E`, and what follows. -/
def verbatim (text : List Char) : List Char × List Char :=
  (Chars.cut ['\\', 'E'] text).getD (text, [])

/-- What follows a backslash, outside brackets. -/
def backslash? (flags : Flags) (g : Group) : List Char → Option (Group × List Char)
  | 'A' :: rest => some (g.add (condition .textStart), rest)
  | 'b' :: rest => some (g.add (condition .wordEdge), rest)
  | 'B' :: rest => some (g.add (condition .noWordEdge), rest)
  | 'z' :: rest => some (g.add (condition .textEnd), rest)
  | 'Q' :: rest =>
    let (quoted, rest) := verbatim rest
    some (quoted.foldl (fun g c => g.add (literal flags c.toNat)) g, rest)
  | text =>
    match text with
    | [] => none
    | c :: rest =>
      match letterClass? c with
      | some k => some (g.add (one ⟨[k], false, flags.anyCase⟩), rest)
      | none => (escape? text).map fun (code, rest) => (g.add (literal flags code), rest)

/-- Reads a group up to its closing parenthesis or the end of the text, neither of which is taken.
`repeated`: the last step was a repetition. `names` are the group names in use. -/
def group? : Nat → Flags → List String → Group → Bool → List Char → Option (Item × List String × List Char)
  | 0, _, _, _, _, _ => none
  | _ + 1, _, names, g, _, [] => some (g.close, names, [])
  | fuel + 1, flags, names, g, repeated, c :: rest =>
    let next (step : Option (Group × List Char)) : Option (Item × List String × List Char) :=
      step.bind fun (g, rest) => group? fuel flags names g false rest
    let again (count : Count) (rest : List Char) : Option (Item × List String × List Char) :=
      if repeated then none
      else (g.repeatLast count rest).bind fun (g, rest) => group? fuel flags names g true rest
    let inner (inside : Flags) (names : List String) (rest : List Char) :
        Option (Item × List String × List Char) := do
      let (item, names, rest) ← group? fuel inside names {} false rest
      match rest with
      | ')' :: rest => group? fuel flags names (g.push item) false rest
      | _ => none
    let named (rest : List Char) : Option (Item × List String × List Char) := do
      let (name, rest) ← groupName? rest
      if name ∈ names then none else inner flags (name :: names) rest
    if c = ')' then some (g.close, names, c :: rest)
    else if c = '|' then
      group? fuel flags names ⟨g.sequence :: g.alternatives, []⟩ false rest
    else if c = '*' then again ⟨0, none⟩ rest
    else if c = '+' then again ⟨1, none⟩ rest
    else if c = '?' then again ⟨0, some 1⟩ rest
    else if c = '\x7b' then
      match braces? rest with
      | some (count, rest) => again count rest
      | none => next (some (g.add (literal flags c.toNat), rest))
    else if c = '(' then
      match rest with
      | '?' :: 'P' :: '<' :: rest => named rest
      | '?' :: '<' :: rest => named rest
      | '?' :: rest =>
        match flags? flags true false rest with
        | some (inside, true, rest) => inner inside names rest
        | some (changed, false, rest) => group? fuel changed names g false rest
        | none => none
      | _ => inner flags names rest
    else if c = '[' then next ((class? flags rest).map fun (set, rest) => (g.add (one set), rest))
    else if c = '.' then next (some (g.add (dot flags), rest))
    else if c = '^' then
      next (some (g.add (condition (if flags.multiline then .lineStart else .textStart)), rest))
    else if c = '$' then
      next (some (g.add (condition (if flags.multiline then .lineEnd else .textEnd)), rest))
    else if c = '\\' then next (backslash? flags g rest)
    else next (some (g.add (literal flags c.toNat), rest))

/-- The pattern that a regular expression stands for; `none` when it is malformed. -/
def parse? (text : List Char) : Option Pattern :=
  match group? (text.length + 1) {} [] {} false text with
  | some (item, _, []) => some item.pattern
  | _ => none

end ShopLint.Pattern
