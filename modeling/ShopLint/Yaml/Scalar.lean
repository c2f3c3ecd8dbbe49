import ShopLint.Yaml.Cursor

/-!
The text of scalars: plain, in single or double quotes, and in blocks where lines are kept or folded.
-/

namespace ShopLint.Yaml

/-- A scalar that was read, the place after it, and whether a new line has begun there. -/
structure ScalarText where
  text : List Char
  after : Cursor
  newLine : Bool := false

/-- Characters that end a plain scalar inside brackets. -/
def isFlowMark (c : Char) : Bool :=
  c = ',' || c = '?' || c = '[' || c = ']' || c = '\x7b' || c = '\x7d'

/-- How many characters of a plain scalar stand before the next gap or end. -/
def plainLength (inFlow : Bool) : List Char → Nat
  | [] => 0
  | c :: rest =>
    if isGap c || (c = ':' && atGap rest) || (inFlow && isFlowMark c) then 0
    else plainLength inFlow rest + 1

/-- Further pieces of a plain scalar whose lines are indented to `indent`; `gap` stands before the
next one. -/
def plainFrom (inFlow : Bool) (indent : Nat) : Nat → Gap → Cursor → Option ScalarText
  | 0, _, _ => none
  | fuel + 1, gap, c =>
    let stop : Option ScalarText := some ⟨[], c, gap.folded⟩
    if c.atDocumentMark || c.rest.head? = some '#' then stop
    else
      match plainLength inFlow c.rest with
      | 0 => stop
      | n + 1 => do
        let piece := c.rest.take (n + 1)
        let here := c.skip (n + 1)
        if !(here.atBlank || here.atBreak) then some ⟨gap.text ++ piece, here, false⟩
        else
          let (next, place) ← readGap indent (here.rest.length + 1) {} here
          if !inFlow && place.column < indent then some ⟨gap.text ++ piece, place, next.folded⟩
          else
            let more ← plainFrom inFlow indent fuel next place
            return { more with text := gap.text ++ piece ++ more.text }

def plain? (inFlow : Bool) (indent : Nat) (c : Cursor) : Option ScalarText :=
  plainFrom inFlow indent (c.rest.length + 1) {} c

/-- The characters that escapes in double quotes stand for. -/
def escapes : List (Char × Char) := [('0', '\x00'), ('a', '\x07'), ('b', '\x08'), ('t', '\t'), ('\t', '\t'),
  ('n', '\n'), ('v', '\x0b'), ('f', '\x0c'), ('r', '\r'), ('e', '\x1b'), (' ', ' '), ('"', '"'),
  ('\'', '\''), ('\\', '\\'), ('N', '\u0085'), ('_', '\u00a0'), ('L', '\u2028'), ('P', '\u2029')]

def hexValue? (c : Char) : Option Nat :=
  if '0' ≤ c ∧ c ≤ '9' then some (c.toNat - 0x30)
  else if 'a' ≤ c ∧ c ≤ 'f' then some (c.toNat - 0x57)
  else if 'A' ≤ c ∧ c ≤ 'F' then some (c.toNat - 0x37)
  else none

/-- A character given by `width` hexadecimal digits. -/
def numbered? (width : Nat) (text : List Char) : Option Char := do
  let values ← (text.take width).mapM hexValue?
  let code := values.foldl (fun n v => 16 * n + v) 0
  if values.length = width && (Char.ofNat code).toNat = code then some (Char.ofNat code) else none

/-- An escape, read after its backslash: its character and how long it is. -/
def escape? : List Char → Option (Char × Nat)
  | [] => none
  | 'x' :: rest => (numbered? 2 rest).map fun c => (c, 3)
  | 'u' :: rest => (numbered? 4 rest).map fun c => (c, 5)
  | 'U' :: rest => (numbered? 8 rest).map fun c => (c, 9)
  | c :: _ => (escapes.lookup c).map fun plain => (plain, 1)

/-- Quoted text from after the opening quote on; the place after it is past the closing quote. -/
def quotedFrom (double : Bool) : Nat → Cursor → Option ScalarText
  | 0, _ => none
  | fuel + 1, c =>
    if c.atDocumentMark then none
    else
      match c.rest with
      | [] => none
      | a :: rest =>
        let go (text : List Char) (place : Cursor) : Option ScalarText := do
          let more ← quotedFrom double fuel place
          return { more with text := text ++ more.text }
        if isGap a then do
          let (gap, place) ← readGap 0 (c.rest.length + 1) {} c
          go gap.text place
        else if !double && a = '\'' then
          if rest.head? = some '\'' then go ['\''] (c.skip 2) else some ⟨[], c.skip 1, false⟩
        else if double && a = '"' then some ⟨[], c.skip 1, false⟩
        else if double && a = '\\' then
          if (c.skip 1).atBreak then do
            let (gap, place) ← readGap 0 (c.rest.length + 1) { folded := true } (c.skip 1).nextLine
            go gap.text place
          else do
            let (plain, n) ← escape? rest
            go [plain] (c.skip (n + 1))
        else go [a] (c.skip 1)

def quoted? (double : Bool) (c : Cursor) : Option ScalarText :=
  quotedFrom double (c.rest.length + 1) (c.skip 1)

/-- What becomes of the line breaks at the end of a block. -/
inductive Chomping
  | strip
  | clip
  | keep
  deriving DecidableEq, Repr

/-- The signs of a block: what to do with its end, and how far it is indented if that is given. -/
structure BlockHead where
  chomping : Chomping := .clip
  indent : Option Nat := none

def chomping? : Char → Option Chomping
  | '+' => some .keep
  | '-' => some .strip
  | _ => none

/-- The signs after `|` or `>` in either order, and how many there are. -/
def blockHead? (text : List Char) : Option (BlockHead × Nat) :=
  let digit? (c : Char) : Option Nat := if '0' ≤ c && c ≤ '9' then some (c.toNat - 0x30) else none
  let first := text.head?
  let second := (text.drop 1).head?
  let (head, n) : BlockHead × Nat :=
    match first.bind chomping? with
    | some ch =>
      match second.bind digit? with
      | some d => (⟨ch, some d⟩, 2)
      | none => (⟨ch, none⟩, 1)
    | none =>
      match first.bind digit? with
      | some d =>
        match second.bind chomping? with
        | some ch => (⟨ch, some d⟩, 2)
        | none => (⟨.clip, some d⟩, 1)
      | none => ({}, 0)
  if head.indent = some 0 then none else some (head, n)

/-- Passes over empty lines and indentation of at most `indent` columns; without a limit the deepest
is reported. `none` when a tab stands where a space is needed. -/
def blockBreaks (indent : Option Nat) : Nat → Nat → List Char → Cursor → Option (List Char × Nat × Cursor)
  | 0, deepest, breaks, c => some (breaks, deepest, c)
  | fuel + 1, deepest, breaks, c =>
    let within := indent.all (c.column < ·)
    match c.rest with
    | [] => some (breaks, max deepest c.column, c)
    | a :: _ =>
      if within && a = ' ' then blockBreaks indent fuel deepest breaks (c.skip 1)
      else if within && a = '\t' then none
      else if isBreak a then
        blockBreaks indent fuel (max deepest c.column) (breaks ++ c.breakText) c.nextLine
      else some (breaks, max deepest c.column, c)

/-- The lines of a block that is indented to `indent`. `lead` is the break before the present line,
`trail` are the empty lines after it, and `blankBefore` says that the line before started with a
blank. -/
def blockLines (folded : Bool) (chomping : Chomping) (indent : Nat) :
    Nat → List Char → List Char → Bool → Cursor → Option ScalarText
  | 0, _, _, _, _ => none
  | fuel + 1, lead, trail, blankBefore, c =>
    if c.column = indent && !c.rest.isEmpty then do
      let blankHere := c.atBlank
      let joined :=
        if folded && lead = ['\n'] && !blankBefore && !blankHere then
          (if trail.isEmpty then [' '] else [])
        else lead
      let line := c.rest.takeWhile fun a => !isBreak a
      let here := c.skip line.length
      let (trail', _, place) ← blockBreaks (some indent) (here.rest.length + 1) 0 [] here.nextLine
      let more ← blockLines folded chomping indent fuel here.breakText trail' blankHere place
      return { more with text := joined ++ trail ++ line ++ more.text }
    else
      let ending :=
        match chomping with
        | .strip => []
        | .clip => lead
        | .keep => lead ++ trail
      some ⟨ending, c, true⟩

/-- A block scalar in a collection indented to `parent`. -/
def block? (folded : Bool) (parent : Int) (c : Cursor) : Option ScalarText := do
  let c := c.skip 1
  let (head, n) ← blockHead? c.rest
  let c := c.skip n
  let c := c.skip (c.rest.takeWhile isBlank).length
  let c := if c.rest.head? = some '#' then c.skip (c.rest.takeWhile fun a => !isBreak a).length else c
  if !(c.rest.isEmpty || c.atBreak) then none
  else
    let c := c.nextLine
    let given := head.indent.map fun n => if 0 ≤ parent then parent.toNat + n else n
    let (trail, deepest, place) ← blockBreaks given (c.rest.length + 1) 0 [] c
    let indent := given.getD (max (max deepest (parent + 1).toNat) 1)
    blockLines folded head.chomping indent (c.rest.length + 1) [] trail false place

end ShopLint.Yaml
