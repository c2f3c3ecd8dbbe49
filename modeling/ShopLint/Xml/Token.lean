import ShopLint.Json.Quoted
import ShopLint.Number.Decimal
import ShopLint.Text.Chars
import ShopLint.Xml.Name

/-!
XML text as a sequence of tokens. The reader is lenient: an attribute may lack its quotes or its
value, and a reference that means nothing stays as it is written.
-/

namespace ShopLint.Xml

structure Attr where
  name : Name
  value : String
  deriving DecidableEq, Repr

inductive Token
  | opening (name : Name) (attrs : List Attr)
  | closing (name : Name)
  | text (content : String)
  | comment
  | directive
  | instruction
  deriving DecidableEq, Repr

def isXmlBlank (c : Char) : Bool := c = ' ' || c = '\r' || c = '\n' || c = '\t'

def skipXmlBlanks (text : List Char) : List Char := text.dropWhile isXmlBlank

/-- A name and what follows it. Something must follow. -/
def nameText? (text : List Char) : Option (List Char × List Char) :=
  let name := text.takeWhile isNameByte
  let rest := text.dropWhile isNameByte
  if isName name && !rest.isEmpty then some (name, rest) else none

def name? (text : List Char) : Option (Name × List Char) := do
  let (name, rest) ← nameText? text
  return (← Name.ofText? name, rest)

def isHexDigit (c : Char) : Bool := (Json.hexValue? c).isSome

/-- The character that a number stands for; surrogates stand for the replacement character. -/
def codeChar? (n : Nat) : Option Char := if 0x10FFFF < n then none else some (Json.unitChar n)

def hexNumber (digits : List Char) : Nat :=
  digits.foldl (fun n c => 16 * n + (Json.hexValue? c).getD 0) 0

/-- The five entities that need no declaration. -/
def entities : List (List Char × Char) :=
  [("lt".toList, '<'), ("gt".toList, '>'), ("amp".toList, '&'), ("apos".toList, '\''),
    ("quot".toList, '"')]

/-- The name or number of a reference after its ampersand, up to where it stops. -/
def referenceBody : List Char → List Char
  | '#' :: 'x' :: cs => '#' :: 'x' :: cs.takeWhile isHexDigit
  | '#' :: cs => '#' :: cs.takeWhile Decimal.isDigitChar
  | cs => cs.takeWhile isNameByte

/-- The character that the body of a reference stands for. -/
def referenced? : List Char → Option Char
  | '#' :: 'x' :: digits => if digits.isEmpty then none else codeChar? (hexNumber digits)
  | '#' :: digits => if digits.isEmpty then none else codeChar? (Decimal.ofDigits digits)
  | name => entities.lookup name

/-- The character of a complete reference after its ampersand, and its length. -/
def reference? (text : List Char) : Option (Char × Nat) := do
  let body := referenceBody text
  let c ← referenced? body
  if (text.drop body.length).head? = some ';' then some (c, body.length + 1) else none

/-- Text with its line endings made newlines and, if `refs` holds, its references replaced; `skip`
characters of a reference are still to be passed over. -/
def decodeFrom (refs : Bool) : Nat → List Char → List Char
  | _, [] => []
  | skip + 1, _ :: cs => decodeFrom refs skip cs
  | 0, c :: cs =>
    if c = '\r' then '\n' :: decodeFrom refs (if cs.head? = some '\n' then 1 else 0) cs
    else if refs && c = '&' then
      match reference? cs with
      | some (d, length) => d :: decodeFrom refs length cs
      | none => '&' :: decodeFrom refs 0 cs
    else c :: decodeFrom refs 0 cs

/-- The text that a stretch of the document stands for; none if it holds a forbidden character. -/
def decoded? (refs : Bool) (raw : List Char) : Option String :=
  let text := decodeFrom refs 0 raw
  if text.all isXmlChar then some (String.ofList text) else none

/-- The end of the text cuts off a reference. -/
def cutsReference (raw : List Char) : Bool :=
  match Chars.cutLast ['&'] raw with
  | some (_, tail) => (referenceBody tail).length = tail.length
  | none => false

def cdataEnd : List Char := [']', ']', '>']

/-- Character data up to the next tag or the end. -/
def charData? (text : List Char) : Option (Token × List Char) :=
  let raw := text.takeWhile (· ≠ '<')
  let rest := text.dropWhile (· ≠ '<')
  if Chars.contains cdataEnd raw || (rest.isEmpty && cutsReference raw) then none
  else (decoded? true raw).map fun s => (.text s, rest)

/-- A character data section after its opening mark. -/
def cdata? (text : List Char) : Option (Token × List Char) := do
  let (raw, rest) ← Chars.cut cdataEnd text
  return (.text (← decoded? false raw), rest)

/-- The value of an attribute in quotes, after the first of them. -/
def quotedValue? (quote : Char) (text : List Char) : Option (String × List Char) :=
  let raw := text.takeWhile fun c => c ≠ quote && c ≠ '<'
  match text.dropWhile fun c => c ≠ quote && c ≠ '<' with
  | c :: rest =>
    if c ≠ quote then none else (decoded? true raw).map fun s => (s, rest)
  | [] => none

def isBareValue (c : Char) : Bool :=
  ('a' ≤ c && c ≤ 'z') || ('A' ≤ c && c ≤ 'Z') || ('0' ≤ c && c ≤ '9') || c = '_' || c = ':' || c = '-'

/-- The value of an attribute after the equals sign. -/
def value? (text : List Char) : Option (String × List Char) :=
  match text with
  | [] => none
  | c :: cs =>
    if c = '"' || c = '\'' then quotedValue? c cs
    else some (String.ofList ((c :: cs).takeWhile isBareValue), (c :: cs).dropWhile isBareValue)

/-- One attribute; without a value it has its own name for one. -/
def attr? (text : List Char) : Option (Attr × List Char) := do
  let (name, text) ← name? text
  match skipXmlBlanks text with
  | '=' :: text =>
    let (value, text) ← value? (skipXmlBlanks text)
    return (⟨name, value⟩, text)
  | text => return (⟨name, name.key⟩, text)

/-- The attributes of a tag and its end: whether it closes itself, and what follows. -/
def attrs? : Nat → List Char → Option (List Attr × Bool × List Char)
  | 0, _ => none
  | fuel + 1, text =>
    match skipXmlBlanks text with
    | [] => none
    | '>' :: rest => some ([], false, rest)
    | '/' :: rest =>
      match rest with
      | '>' :: rest => some ([], true, rest)
      | _ => none
    | text => do
      let (attr, text) ← attr? text
      let (attrs, closed, rest) ← attrs? fuel text
      return (attr :: attrs, closed, rest)

/-- `attrs` with one more: a name already there keeps its place and takes the new value. -/
def setAttr (attrs : List Attr) (attr : Attr) : List Attr :=
  if attrs.any (·.name = attr.name) then
    attrs.map fun a => if a.name = attr.name then attr else a
  else attrs ++ [attr]

/-- An opening tag after its bracket; one that closes itself counts for two tokens. -/
def openingTag? (text : List Char) : Option (List Token × List Char) := do
  let (name, text) ← name? text
  let (attrs, closed, rest) ← attrs? (text.length + 1) text
  let opening := Token.opening name (attrs.foldl setAttr [])
  return (if closed then [opening, .closing name] else [opening], rest)

def closingTag? (text : List Char) : Option (Token × List Char) := do
  let (name, text) ← name? text
  match skipXmlBlanks text with
  | '>' :: rest => some (.closing name, rest)
  | _ => none

/-- The value of a setting such as `version="1.0"` in a declaration, empty when there is none. -/
def setting (fuel : Nat) (key content : List Char) : List Char :=
  match fuel with
  | 0 => []
  | fuel + 1 =>
    match Chars.cut (key ++ ['=']) content with
    | some (_, c :: rest) =>
      if c = '"' || c = '\'' then
        match Chars.cut [c] rest with
        | some (value, _) => value
        | none => []
      else setting fuel key rest
    | _ => []

/-- A processing instruction after `<?`. A declaration must be for version 1.0. -/
def instruction? (text : List Char) : Option (Token × List Char) := do
  let (target, text) ← nameText? text
  let (content, rest) ← Chars.cut ['?', '>'] (skipXmlBlanks text)
  let version := setting (content.length + 1) "version".toList content
  if target = "xml".toList && !version.isEmpty && version ≠ "1.0".toList then none
  else some (.instruction, rest)

/-- A comment after its opening mark; two hyphens may only end it. -/
def comment? (text : List Char) : Option (Token × List Char) := do
  let (_, rest) ← Chars.cut ['-', '-'] text
  match rest with
  | '>' :: rest => some (.comment, rest)
  | _ => none

/-- What follows a directive. Brackets nest, except in quotes; comments in it are passed over, of
which `skip` characters are still to come. -/
def afterDirective? : Nat → Option Char → Nat → List Char → Option (List Char)
  | _, _, _, [] => none
  | skip + 1, quote, depth, _ :: cs => afterDirective? skip quote depth cs
  | 0, some quote, depth, c :: cs =>
    afterDirective? 0 (if c = quote then none else some quote) depth cs
  | 0, none, depth, c :: cs =>
    if c = '>' then
      match depth with
      | 0 => some cs
      | depth + 1 => afterDirective? 0 none depth cs
    else if c = '"' || c = '\'' then afterDirective? 0 (some c) depth cs
    else if c = '<' then
      match (Chars.after? ['!', '-', '-'] cs).bind (Chars.cut ['-', '-', '>']) with
      | some (inside, _) => afterDirective? (inside.length + 6) none depth cs
      | none =>
        if (Chars.after? ['!', '-', '-'] cs).isSome then none
        else afterDirective? 0 none (depth + 1) cs
    else afterDirective? 0 none depth cs

/-- What starts with `<!`. -/
def declaration? (text : List Char) : Option (Token × List Char) :=
  match text with
  | [] => none
  | '-' :: '-' :: rest => comment? rest
  | '-' :: _ => none
  | '[' :: rest => (Chars.after? "CDATA[".toList rest).bind cdata?
  | _ :: rest => (afterDirective? 0 none 0 rest).map fun rest => (.directive, rest)

/-- The next token or two, and what follows. -/
def next? (text : List Char) : Option (List Token × List Char) :=
  match text with
  | '<' :: '/' :: rest => (closingTag? rest).map fun p => ([p.1], p.2)
  | '<' :: '?' :: rest => (instruction? rest).map fun p => ([p.1], p.2)
  | '<' :: '!' :: rest => (declaration? rest).map fun p => ([p.1], p.2)
  | '<' :: rest => openingTag? rest
  | text => (charData? text).map fun p => ([p.1], p.2)

def tokensUpTo : Nat → List Char → Option (List Token)
  | 0, text => if text.isEmpty then some [] else none
  | fuel + 1, text =>
    if text.isEmpty then some []
    else do
      let (tokens, rest) ← next? text
      return tokens ++ (← tokensUpTo fuel rest)

/-- The tokens of a text. Each takes at least one character. -/
def tokens? (text : List Char) : Option (List Token) := tokensUpTo text.length text

end ShopLint.Xml
