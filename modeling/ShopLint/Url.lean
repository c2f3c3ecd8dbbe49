import ShopLint.Text.Basic
import ShopLint.Text.Quoted

/-!
Which texts are URLs. Only what makes a text unusable as one is looked for: control characters, a
missing scheme, bad hosts and ports, and escapes that are not followed by two hexadecimal digits.
-/

namespace ShopLint.Url

inductive Problem
  | controlCharacter
  | missingScheme
  | colonInPath
  | unclosedBracket
  | badPort (port : String)
  | badEscape (escape : String)
  | badHostChar (char : String)
  | badUser
  deriving DecidableEq, Repr

def Problem.message : Problem → String
  | controlCharacter => "net/url: invalid control character in URL"
  | missingScheme => "missing protocol scheme"
  | colonInPath => "first path segment in URL cannot contain colon"
  | unclosedBracket => "missing ']' in host"
  | badPort port => s!"invalid port {Text.quote port} after host"
  | badEscape escape => s!"invalid URL escape {Text.quote escape}"
  | badHostChar char => s!"invalid character {Text.quote char} in host name"
  | badUser => "net/url: invalid userinfo"

/-- The part of a text that is no URL, and why. -/
structure Error where
  part : String
  problem : Problem
  deriving DecidableEq, Repr

def Error.message (e : Error) : String := s!"parse {Text.quote e.part}: {e.problem.message}"

/-- Where in a URL a text stands. -/
inductive Place
  | host
  | zone
  | other
  deriving DecidableEq, Repr

def isHex (c : Char) : Bool :=
  ('0' ≤ c && c ≤ '9') || ('a' ≤ c && c ≤ 'f') || ('A' ≤ c && c ≤ 'F')

/-- Characters that a host name may hold as they are. -/
def isHostChar (c : Char) : Bool := c.isAlphanum || c ∈ "!$&'()*+,;=:[]<>\"-_.~".toList

def hexValue (c : Char) : Nat :=
  if c ≤ '9' then c.toNat - 0x30 else if c ≤ 'F' then c.toNat - 0x37 else c.toNat - 0x57

/-- An escape of two digits that is not allowed at its place. In a host only characters beyond ASCII
and the percent sign are escaped. -/
def isBadEscape (place : Place) (a b : Char) : Bool :=
  let percent := a = '2' && b = '5'
  match place with
  | .host => a ≤ '7' && '0' ≤ a && !percent
  | .zone =>
    let code := 16 * hexValue a + hexValue b
    !percent && code ≠ 0x20 && (0x80 ≤ code || !isHostChar (Char.ofNat code))
  | .other => false

/-- Looks at the escapes and characters of a part. -/
def scan (place : Place) : List Char → Except Problem Unit
  | [] => .ok ()
  | '%' :: a :: b :: rest =>
    if !(isHex a && isHex b) || isBadEscape place a b then .error (.badEscape (String.ofList ['%', a, b]))
    else scan place rest
  | '%' :: rest => .error (.badEscape (String.ofList ('%' :: rest)))
  | c :: rest =>
    if place ≠ .other && c.toNat < 0x80 && !isHostChar c then .error (.badHostChar (String.singleton c))
    else scan place rest

/-- Nothing, or a colon and digits. -/
def isPort : List Char → Bool
  | [] => true
  | ':' :: digits => digits.all fun c => '0' ≤ c && c ≤ '9'
  | _ => false

def checkHost (host : List Char) : Except Problem Unit :=
  match host with
  | '[' :: _ =>
    match Chars.cutLast [']'] host with
    | none => .error .unclosedBracket
    | some (inner, port) => do
      if !isPort port then .error (.badPort (String.ofList port))
      else
        match Chars.cut ['%', '2', '5'] inner with
        | some (address, zone) =>
          scan .host address
          scan .zone (['%', '2', '5'] ++ zone)
          scan .host (']' :: port)
        | none => scan .host host
  | _ =>
    match Chars.cutLast [':'] host with
    | some (_, port) =>
      if isPort (':' :: port) then scan .host host else .error (.badPort (String.ofList (':' :: port)))
    | none => scan .host host

def isUserChar (c : Char) : Bool := c.isAlphanum || c ∈ "-._:~!$&'()*+,;=%@".toList

/-- What stands between `//` and the path: a host, before which a user may stand. -/
def checkAuthority (text : List Char) : Except Problem Unit :=
  match Chars.cutLast ['@'] text with
  | none => checkHost text
  | some (user, host) => do
    checkHost host
    if !user.all isUserChar then .error .badUser
    else
      match Chars.cut [':'] user with
      | some (name, password) =>
        scan .other name
        scan .other password
      | none => scan .other user

def isLetter (c : Char) : Bool := ('a' ≤ c && c ≤ 'z') || ('A' ≤ c && c ≤ 'Z')

/-- The scheme before the first colon, if all before it can be one, and the rest. -/
def scheme (text : List Char) : Except Problem (List Char × List Char) :=
  let lead := text.takeWhile fun c => isLetter c || ('0' ≤ c && c ≤ '9') || c = '+' || c = '-' || c = '.'
  match text.drop lead.length with
  | ':' :: rest =>
    match lead with
    | [] => .error .missingScheme
    | c :: _ => if isLetter c then .ok (lead, rest) else .ok ([], text)
  | _ => .ok ([], text)

/-- A URL without its fragment. -/
def checkMain (text : List Char) : Except Problem Unit := do
  if text.any fun c => c < ' ' || c = '\x7f' then .error .controlCharacter
  else
    let (scheme, rest) ← scheme text
    let rest := rest.takeWhile (· ≠ '?')
    if rest.head? ≠ some '/' then
      if !scheme.isEmpty then .ok ()
      else if (rest.takeWhile (· ≠ '/')).contains ':' then .error .colonInPath
      else scan .other rest
    else if (!scheme.isEmpty || !(['/', '/', '/'].isPrefixOf rest)) && ['/', '/'].isPrefixOf rest then
      let authority := (rest.drop 2).takeWhile (· ≠ '/')
      checkAuthority authority
      scan .other (rest.drop (2 + authority.length))
    else scan .other rest

/-- The text is a URL, or has this problem. -/
def check (text : String) : Except Error Unit :=
  let (main, fragment) := (Chars.cut ['#'] text.toList).getD (text.toList, [])
  match checkMain main with
  | .error p => .error ⟨String.ofList main, p⟩
  | .ok () =>
    match scan .other fragment with
    | .error p => .error ⟨text, p⟩
    | .ok () => .ok ()

end ShopLint.Url
