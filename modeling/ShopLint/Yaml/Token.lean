import ShopLint.Yaml.Scalar

/-!
The tokens of YAML text. Indentation becomes tokens that open and close collections. That a scalar was
a key is known only at the colon after it, so places where a key may have started are remembered.
-/

namespace ShopLint.Yaml

inductive Token
  | version (major minor : Nat)
  | tagHandle (handle lead : String)
  | documentStart
  | documentEnd
  | streamEnd
  | blockSequence
  | blockMapping
  | blockEnd
  | flowSequence
  | flowSequenceEnd
  | flowMapping
  | flowMappingEnd
  | blockEntry
  | flowEntry
  | key
  | value
  | copy (name : String)
  | anchor (name : String)
  | tag (handle suffix : String)
  | scalar (text : String) (isPlain : Bool)
  deriving DecidableEq, Repr

/-- A place where a key may have started: the number of tokens before it. A `required` one stands where
nothing but a key can. -/
structure KeyStart where
  tokens : Nat
  required : Bool
  index : Nat
  line : Nat
  column : Nat

/-- The state of the reading. `indents` are the columns of the open collections outside brackets, the
innermost first; `keys` are the possible keys of the open brackets and of the text around them. -/
structure Scanner where
  here : Cursor
  tokens : List Token := []
  indents : List Int := []
  indent : Int := -1
  keys : List (Option KeyStart) := [none]
  keyAllowed : Bool := true
  finished : Bool := false

namespace Scanner

def inFlow (s : Scanner) : Bool := 1 < s.keys.length

def emit (s : Scanner) (t : Token) : Scanner := { s with tokens := s.tokens ++ [t] }

/-- The token put before the last ones, so that `n` tokens stand before it. -/
def insert (s : Scanner) (n : Nat) (t : Token) : Scanner :=
  { s with tokens := s.tokens.take n ++ [t] ++ s.tokens.drop n }

/-- Opens a collection at a column that is deeper than the present one; `n` tokens stand before it. -/
def roll (s : Scanner) (column : Nat) (n : Nat) (t : Token) : Scanner :=
  if s.inFlow || (column : Int) ≤ s.indent then s
  else { s.insert n t with indents := s.indent :: s.indents, indent := column }

/-- Closes the collections that are deeper than a column. -/
def unrollFrom (column : Int) : List Int → Scanner → Scanner
  | [], s => s
  | outer :: rest, s =>
    if column < s.indent then unrollFrom column rest { s.emit .blockEnd with indent := outer, indents := rest }
    else s

def unroll (s : Scanner) (column : Int) : Scanner := if s.inFlow then s else unrollFrom column s.indents s

/-- Forgets the possible key of the innermost brackets; fails if a key was required. -/
def dropKey (s : Scanner) : Option Scanner :=
  match s.keys with
  | some k :: rest => if k.required then none else some { s with keys := none :: rest }
  | _ => some s

/-- Remembers that a key may start here. -/
def saveKey (s : Scanner) : Option Scanner :=
  if !s.keyAllowed then some s
  else do
    let required := !s.inFlow && s.indent = s.here.column
    let k : KeyStart := ⟨s.tokens.length, required, s.here.index, s.here.line, s.here.column⟩
    let s ← s.dropKey
    return { s with keys := some k :: s.keys.drop 1 }

/-- How long a key may be. -/
def keyLimit : Nat := 1024

/-- Forgets keys that a line break or their length rules out. -/
def dropStale (s : Scanner) : Option Scanner := do
  let keys ← s.keys.mapM fun k? =>
    match k? with
    | none => some none
    | some k =>
      if k.line < s.here.line || k.index + keyLimit < s.here.index then
        (if k.required then none else some none)
      else some (some k)
  return { s with keys := keys }

/-- Passes over blanks, comments and line breaks. Tabs count as blanks where no key can start. -/
def toNextToken : Nat → Scanner → Scanner
  | 0, s => s
  | fuel + 1, s =>
    match s.here.rest with
    | [] => s
    | c :: rest =>
      if s.here.index = 0 && c = '\ufeff' then
        toNextToken fuel { s with here := { s.here with rest := rest } }
      else if c = ' ' || (c = '\t' && (s.inFlow || !s.keyAllowed)) then
        toNextToken fuel { s with here := s.here.skip 1 }
      else if c = '#' then
        toNextToken fuel { s with here := s.here.skip (s.here.rest.takeWhile fun a => !isBreak a).length }
      else if isBreak c then
        toNextToken fuel { s with here := s.here.nextLine, keyAllowed := s.keyAllowed || !s.inFlow }
      else s

/-- One character that is a token of its own. -/
def mark (s : Scanner) (t : Token) : Scanner := { s.emit t with here := s.here.skip 1 }

def isUriChar (c : Char) : Bool :=
  c.isAlphanum || c ∈ ['_', '-', ';', '/', '?', ':', '@', '&', '=', '+', '$', '.', '!', '~', '*', '\'', '(',
    ')', '%', ',', '[', ']']

/-- The text after blanks and a comment is at the end of its line. -/
def endOfLine? (c : Cursor) : Option Cursor :=
  let c := c.skip (c.rest.takeWhile isBlank).length
  let c := if c.rest.head? = some '#' then c.skip (c.rest.takeWhile fun a => !isBreak a).length else c
  if c.rest.isEmpty then some c else if c.atBreak then some c.nextLine else none

/-- A number of at most nine digits. -/
def number? (text : List Char) : Option (Nat × List Char) :=
  let digits := text.takeWhile Char.isDigit
  if digits.isEmpty || 9 < digits.length then none
  else some (digits.foldl (fun n c => 10 * n + (c.toNat - 0x30)) 0, text.drop digits.length)

/-- A directive, read at its percent sign. -/
def directive? (s : Scanner) : Option Scanner := do
  let c := s.here.skip 1
  let name := c.rest.takeWhile isWordChar
  let c := c.skip name.length
  if name.isEmpty || !atGap c.rest then none
  else
    let c := c.skip (c.rest.takeWhile isBlank).length
    match String.ofList name with
    | "YAML" =>
      let (major, rest) ← number? c.rest
      match rest with
      | '.' :: rest =>
        let (minor, rest) ← number? rest
        let c ← endOfLine? (c.skip (c.rest.length - rest.length))
        return { s.emit (.version major minor) with here := c }
      | _ => none
    | "TAG" =>
      let handle := c.rest.takeWhile fun a => !isGap a
      let c := c.skip handle.length
      let blanks := c.rest.takeWhile isBlank
      let c := c.skip blanks.length
      let lead := c.rest.takeWhile fun a => !isGap a
      let inner := (handle.drop 1).dropLast
      if blanks.isEmpty || lead.isEmpty || !lead.all isUriChar || handle.head? ≠ some '!' ||
          (1 < handle.length && (handle.getLast? ≠ some '!' || !inner.all isWordChar)) then none
      else
        let c ← endOfLine? (c.skip lead.length)
        return { s.emit (.tagHandle (String.ofList handle) (String.ofList lead)) with here := c }
    | _ => none

/-- The name of an anchor or alias, read at its sign. -/
def name? (c : Cursor) : Option (String × Cursor) :=
  let name := (c.rest.drop 1).takeWhile isWordChar
  let after := c.skip (name.length + 1)
  let ends := atGap after.rest || after.rest.head?.any (· ∈ ['?', ':', ',', ']', '\x7d', '%', '@', '\x60'])
  if name.isEmpty || !ends then none else some (String.ofList name, after)

/-- A tag, read at its sign: in angle brackets, with a handle, or plain. -/
def tag? (c : Cursor) : Option (Token × Cursor) :=
  match c.rest with
  | '!' :: '<' :: rest =>
    let uri := rest.takeWhile isUriChar
    let after := c.skip (uri.length + 2)
    if uri.isEmpty || after.rest.head? ≠ some '>' || !atGap (after.rest.drop 1) then none
    else some (.tag "" (String.ofList uri), after.skip 1)
  | _ =>
    let word := (c.rest.drop 1).takeWhile isWordChar
    let after := c.skip (word.length + 1)
    if after.rest.head? = some '!' then
      let uri := (after.rest.drop 1).takeWhile isUriChar
      let place := after.skip (uri.length + 1)
      if uri.isEmpty || !atGap place.rest then none
      else some (.tag ("!" ++ String.ofList word ++ "!") (String.ofList uri), place)
    else
      let uri := (c.rest.drop 1).takeWhile isUriChar
      let place := c.skip (uri.length + 1)
      if !atGap place.rest then none
      else if uri.isEmpty then some (.tag "" "!", place)
      else some (.tag "!" (String.ofList uri), place)

def scalar (s : Scanner) (found : ScalarText) (isPlain : Bool) : Scanner :=
  { s.emit (.scalar (String.ofList found.text) isPlain) with here := found.after }

def openFlow (s : Scanner) (t : Token) : Option Scanner := do
  let s ← s.saveKey
  return { s.mark t with keys := none :: s.keys, keyAllowed := true }

def closeFlow (s : Scanner) (t : Token) : Option Scanner := do
  let s ← s.dropKey
  let keys := if s.inFlow then s.keys.drop 1 else s.keys
  return { s.mark t with keys := keys, keyAllowed := false }

def entry (s : Scanner) : Option Scanner := do
  if !s.inFlow && !s.keyAllowed then none
  else
    let s := s.roll s.here.column s.tokens.length .blockSequence
    let s ← s.dropKey
    return { s.mark .blockEntry with keyAllowed := true }

def explicitKey (s : Scanner) : Option Scanner := do
  if !s.inFlow && !s.keyAllowed then none
  else
    let s := s.roll s.here.column s.tokens.length .blockMapping
    let s ← s.dropKey
    return { s.mark .key with keyAllowed := !s.inFlow }

/-- A colon after a key: what was remembered as a possible key is one. -/
def keyValue (s : Scanner) : Option Scanner :=
  match s.keys with
  | some k :: rest =>
    let s := (s.insert k.tokens .key).roll k.column k.tokens .blockMapping
    some { s.mark .value with keys := none :: rest, keyAllowed := false }
  | _ =>
    if !s.inFlow && !s.keyAllowed then none
    else
      let s := s.roll s.here.column s.tokens.length .blockMapping
      some { s.mark .value with keyAllowed := !s.inFlow }

/-- Ends what is open before a mark between documents. -/
def closeAll (s : Scanner) : Option Scanner := do
  let s ← (s.unroll (-1)).dropKey
  return { s with keyAllowed := false }

/-- Characters with which no plain scalar starts. -/
def isIndicator (c : Char) : Bool :=
  c ∈ ['-', '?', ':', ',', '[', ']', '\x7b', '\x7d', '#', '&', '*', '!', '|', '>', '\'', '"', '%', '@', '\x60']

/-- A plain scalar can start with `c` before `rest`. -/
def startsPlain (s : Scanner) (c : Char) (rest : List Char) : Bool :=
  !(isGap c || isIndicator c) || (c = '-' && !(rest.head?.any isBlank)) ||
    (!s.inFlow && (c = '?' || c = ':') && !atGap rest)

/-- A document has been started by a mark or by content. -/
def hasContent (s : Scanner) : Bool :=
  s.tokens.any fun
    | .version .. | .tagHandle .. => false
    | _ => true

/-- Reads the next token; `none` when the text has none. After the end of the first document the
reading is finished. -/
def step (s : Scanner) : Option Scanner := do
  let s := toNextToken (s.here.rest.length + 1) s
  let s ← s.dropStale
  let s := s.unroll s.here.column
  match s.here.rest with
  | [] =>
    let s ← s.closeAll
    return { s.emit .streamEnd with finished := true }
  | c :: rest =>
    if s.here.column = 0 && c = '%' then
      (← s.closeAll).directive?
    else if s.here.atMark "---" then
      let again := s.hasContent
      let s ← s.closeAll
      return { s.emit .documentStart with here := s.here.skip 3, finished := again }
    else if s.here.atMark "..." then
      let s ← s.closeAll
      return { s.emit .documentEnd with here := s.here.skip 3, finished := true }
    else if c = '[' then s.openFlow .flowSequence
    else if c = '\x7b' then s.openFlow .flowMapping
    else if c = ']' then s.closeFlow .flowSequenceEnd
    else if c = '\x7d' then s.closeFlow .flowMappingEnd
    else if c = ',' then return { (← s.dropKey).mark .flowEntry with keyAllowed := true }
    else if c = '-' && atGap rest then s.entry
    else if c = '?' && (s.inFlow || atGap rest) then s.explicitKey
    else if c = ':' && (s.inFlow || atGap rest) then s.keyValue
    else if c = '*' then
      let s ← s.saveKey
      let (name, after) ← name? s.here
      return { s.emit (.copy name) with here := after, keyAllowed := false }
    else if c = '&' then
      let s ← s.saveKey
      let (name, after) ← name? s.here
      return { s.emit (.anchor name) with here := after, keyAllowed := false }
    else if c = '!' then
      let s ← s.saveKey
      let (t, after) ← tag? s.here
      return { s.emit t with here := after, keyAllowed := false }
    else if (c = '|' || c = '>') && !s.inFlow then
      let s ← s.dropKey
      let found ← block? (c = '>') s.indent s.here
      return { s.scalar found false with keyAllowed := true }
    else if c = '\'' || c = '"' then
      let s ← s.saveKey
      let found ← quoted? (c = '"') s.here
      return { s.scalar found false with keyAllowed := false }
    else if s.startsPlain c rest then
      let s ← s.saveKey
      let found ← plain? s.inFlow (s.indent + 1).toNat s.here
      return { s.scalar found true with keyAllowed := found.newLine }
    else none

/-- Reads tokens until the first document ends or no token can be read; `fuel` bounds their number. -/
def run : Nat → Scanner → List Token
  | 0, s => s.tokens
  | fuel + 1, s =>
    if s.finished then s.tokens
    else
      match s.step with
      | some s => run fuel s
      | none => s.tokens

end Scanner

/-- The tokens of the first document of a text, as far as they can be read. -/
def tokensOf (text : List Char) : List Token :=
  let text := if text.head? = some '\ufeff' then text.drop 1 else text
  Scanner.run (2 * text.length + 4) { here := { rest := text } }

end ShopLint.Yaml
