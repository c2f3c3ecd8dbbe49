import ShopLint.Php.ClassName
import ShopLint.Php.Lexeme
import ShopLint.Text.Line
import ShopLint.Text.Scan

/-!
The head of a PHP file: its namespace, its imports and its first class. Each statement is read where
it starts a line, whatever stands around it; strings and comments are not told apart from code.
-/

namespace ShopLint.Php

/-- `read` after the blanks at the start of a line; the blanks may span lines. -/
def atLineStart {α : Type} (read : List Char → Option α) : Scan.Reader α := fun prev text =>
  if Scan.lineStart prev then read (skipSpaces text) else none

/-- `namespace Name` up to its semicolon or brace. -/
def namespace? (text : List Char) : Option (List Char) := do
  let text ← spaces? (← word? "namespace" text)
  let (name, text) ← qualified? text
  let _ ← Chars.afterOne? (fun c => c = ';' || c = '\x7b') (skipSpaces text)
  return name

/-- The declared namespace, empty when there is none. -/
def namespaceOf (source : List Char) : String :=
  match Scan.find? (atLineStart namespace?) source with
  | some (_, name) => String.ofList name
  | none => ""

/-- One import: the full name, and the name it goes by if that is given. -/
structure Use where
  name : List Char
  alias? : Option (List Char)
  deriving DecidableEq, Repr

/-- `as Alias` after at least one blank. -/
def useAlias? (text : List Char) : Option (List Char × List Char) := do
  identifier? (← spaces? (← word? "as" (← spaces? text)))

/-- `use Name;` or `use Name as Alias;`, and what follows. -/
def use? (text : List Char) : Option (Use × List Char) := do
  let text ← spaces? (← word? "use" text)
  let (name, text) ← qualified? (skipChar '\\' text)
  let (short, text) :=
    match useAlias? text with
    | some (short, rest) => (some short, rest)
    | none => (none, text)
  let text ← Chars.afterOne? (· = ';') (skipSpaces text)
  return (⟨name, short⟩, text)

/-- The short name under which an import is known. -/
def Use.key (u : Use) : String :=
  match u.alias? with
  | some short => String.ofList short
  | none => ClassName.lastSegment (String.ofList u.name)

def usesOf (source : List Char) : List Use := Scan.all (atLineStart use?) source

/-- The imports of a file by short name; a later statement replaces an earlier one. -/
def importsOf (source : List Char) : Dict String :=
  Dict.ofList ((usesOf source).map fun u => (u.key, String.ofList u.name))

/-- A word that may stand before `class`. -/
def classModifier? (text : List Char) : Option (List Char) :=
  match ["abstract", "final", "readonly"].findSome? fun word => word? word text with
  | some rest => spaces? rest
  | none => none

theorem classModifier?_length {text rest : List Char} (h : classModifier? text = some rest) :
    rest.length < text.length := by
  simp only [classModifier?] at h
  split at h
  next after found =>
    obtain ⟨word, _, hw⟩ := List.exists_of_findSome?_eq_some found
    have := word?_length hw
    have := spaces?_length h
    omega
  next => simp at h

/-- The text after the words that may stand before `class`. -/
def skipClassModifiers (text : List Char) : List Char :=
  match _h : classModifier? text with
  | some rest => skipClassModifiers rest
  | none => text
termination_by text.length
decreasing_by exact classModifier?_length _h

/-- `extends Name` after at least one blank. -/
def extends? (text : List Char) : Option (List Char × List Char) := do
  rooted? (← spaces? (← word? "extends" (← spaces? text)))

/-- The head of a class: its name, the class it extends as written, and the text from the name on
and after the head. -/
structure ClassHead where
  name : List Char
  extends? : Option (List Char)
  fromName : List Char
  rest : List Char
  deriving DecidableEq, Repr

def classHead? (text : List Char) : Option ClassHead := do
  let text ← spaces? (← word? "class" (skipClassModifiers text))
  let (name, rest) ← identifier? text
  match Php.extends? rest with
  | some (parent, rest) => return ⟨name, some parent, text, rest⟩
  | none => return ⟨name, none, text, rest⟩

/-- The first class of a file. `parent` is as written, and empty when the class extends nothing;
`line` is the line of the class name. -/
structure ClassDecl where
  name : String
  parent : String
  line : Nat
  deriving DecidableEq, Repr

/-- The text of `source` before its final part `rest`. -/
def textBefore (source rest : List Char) : List Char := source.take (source.length - rest.length)

def classOf (source : List Char) : Option ClassDecl :=
  (Scan.find? (atLineStart classHead?) source).map fun p =>
    { name := String.ofList p.2.name
      parent := String.ofList (p.2.extends?.getD [])
      line := lineAfter (textBefore source p.2.fromName) }

/-- The full name of the first class, empty when there is none. -/
def classNameOf (source : List Char) : String :=
  match classOf source with
  | some decl => ClassName.qualify (namespaceOf source) decl.name
  | none => ""

/-- The text of an `implements` clause up to the brace. Blanks alone make a clause only if there are
two of them. -/
def implementsClause? (text : List Char) : Option (List Char) := do
  let text ← word? "implements" (← spaces? text)
  match text.takeWhile isSpace, text.dropWhile isSpace with
  | [], _ => none
  | blanks, [] => if blanks.length < 2 then none else some [' ']
  | blanks, c :: cs =>
    if c = '\x7b' then (if blanks.length < 2 then none else some [' '])
    else some ((c :: cs).takeWhile (· ≠ '\x7b'))

/-- A class head that goes on with an `implements` clause. -/
def implementing? (text : List Char) : Option (List Char) := do
  implementsClause? (← classHead? text).rest

/-- The interfaces, as written, of the first class that has an `implements` clause. -/
def interfaceNames (source : List Char) : List String :=
  match Scan.find? (atLineStart implementing?) source with
  | none => []
  | some (_, clause) => ((Text.splitOn ',' (String.ofList clause)).map Text.trim).filter (· ≠ "")

/-- The interfaces, resolved. The imports are gone through anew for each of them, in an order of its
own. -/
def implementsOf (orders : Nat → Dict.Listing String) (source : List Char) : List String :=
  (interfaceNames source).mapIdx fun n name =>
    ClassName.resolve (orders n) (importsOf source) (namespaceOf source) name

end ShopLint.Php
