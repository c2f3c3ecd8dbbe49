import ShopLint.Php.Header

/-!
The parameters of a constructor. The list ends at the first closing parenthesis and is divided at
commas, so a default such as `array()` cuts it short.
-/

namespace ShopLint.Php

/-- One constructor parameter. `type` is as written and empty when there is none; `className` is the
class it stands for, empty for builtin and missing types. -/
structure Param where
  name : String
  type : String
  className : String
  nullable : Bool
  isOptional : Bool
  line : Nat
  deriving DecidableEq, Repr

structure Constructor where
  line : Nat
  params : List Param
  deriving DecidableEq, Repr

/-- `function __construct (` up to the closing parenthesis: the text of the parameter list and the
text from the list on. -/
def signature? (text : List Char) : Option (List Char × List Char) := do
  let text ← spaces? (← word? "function" text)
  let text ← word? "(" (skipSpaces (← word? "__construct" text))
  let list := text.takeWhile (· ≠ ')')
  let _ ← Chars.afterOne? (· = ')') (text.drop list.length)
  return (list, text)

/-- An attribute `#[…]`, which ends at its first closing bracket. -/
def attribute? (text : List Char) : Option (List Char) := do
  let text ← word? "#[" text
  Chars.afterOne? (· = ']') (text.dropWhile (· ≠ ']'))

/-- A visibility, which may be for setting only. -/
def visibility? (text : List Char) : Option (List Char) :=
  match ["public", "protected", "private"].findSome? fun word => foldedWord? word.toList text with
  | none => none
  | some rest => some ((foldedWord? "(set)".toList rest).getD rest)

/-- One modifier of a promoted parameter with the blanks after it. -/
def paramModifier? (text : List Char) : Option (List Char) :=
  match visibility? text with
  | some rest => spaces? rest
  | none =>
    match foldedWord? "readonly".toList text with
    | some rest => spaces? rest
    | none => none

theorem paramModifier?_length {text rest : List Char} (h : paramModifier? text = some rest) :
    rest.length < text.length := by
  have folded {word after : List Char} (hw : foldedWord? word text = some after) :
      after.length ≤ text.length := by
    have := foldedWord?_length hw
    omega
  simp only [paramModifier?] at h
  split at h
  next after found =>
    have short : after.length ≤ text.length := by
      simp only [visibility?] at found
      split at found
      next => simp at found
      next after' found' =>
        obtain ⟨word, _, hw⟩ := List.exists_of_findSome?_eq_some found'
        have first := folded hw
        simp only [Option.some.injEq] at found
        subst found
        cases set : foldedWord? "(set)".toList after' with
        | none => simpa using first
        | some b =>
          have := foldedWord?_length set
          simp only [Option.getD_some]
          omega
    have := spaces?_length h
    omega
  next =>
    split at h
    next after found =>
      have := folded found
      have := spaces?_length h
      omega
    next => simp at h

def skipParamModifiers (text : List Char) : List Char :=
  match _h : paramModifier? text with
  | some rest => skipParamModifiers rest
  | none => text
termination_by text.length
decreasing_by exact paramModifier?_length _h

def isTypeStart (c : Char) : Bool := isNameStart c || c = '\\'

def isTypeChar (c : Char) : Bool := isQualified c || c = '|'

/-- The type at the start of a parameter, possibly empty. -/
def typeText : List Char → List Char × List Char
  | [] => ([], [])
  | c :: cs => if isTypeStart c then (c :: cs.takeWhile isTypeChar, cs.dropWhile isTypeChar) else ([], c :: cs)

/-- A parameter without modifiers: question mark, type, reference and variadic marks, name. -/
structure ParamText where
  marked : Bool
  type : List Char
  name : List Char
  deriving DecidableEq, Repr

def paramText? (text : List Char) : Option ParamText := do
  let marked := text.head? = some '?'
  let (type, text) := typeText (skipChar '?' text)
  let text := skipSpaces (skipChar '&' (skipSpaces text))
  let text := skipSpaces ((word? "..." text).getD text)
  let (name, _) ← identifier? (← word? "$" text)
  return ⟨marked, type, name⟩

/-- The members of a type, divided by bars. -/
def typeMembers (type : String) : List String := Text.splitOn '|' type

/-- The first member of a type that names a class, empty when there is none. -/
def classMember (type : String) : String :=
  ((typeMembers type).find? fun m => !Text.equalFold m "null" && m ≠ "" && !ClassName.isBuiltin m).getD ""

/-- What stands before the equals sign, if there is one. -/
def beforeDefault (text : List Char) : Option (List Char) :=
  (Chars.cut ['='] text).map Prod.fst

/-- One stretch between the commas of the list, on the given line. -/
def param? (order : Dict.Listing String) (imports : Dict String) (space : String) (line : Nat)
    (segment : List Char) : Option Param := do
  let text := Chars.trimWhile isBlank (Scan.erase attribute? segment)
  if text.isEmpty then none
  else
    let (isOptional, text) :=
      match beforeDefault text with
      | some before => (true, Chars.trimWhile isBlank before)
      | none => (false, text)
    let p ← paramText? (skipParamModifiers text)
    let type := String.ofList p.type
    let member := classMember type
    return {
      name := String.ofList p.name
      type := type
      className := if member = "" then "" else ClassName.resolve order imports space member
      nullable := p.marked || (typeMembers type).any (Text.equalFold · "null")
      isOptional := isOptional
      line := line }

/-- The blanks before a parameter, which its line number takes into account. -/
def isLead (c : Char) : Bool := c = ' ' || c = '\t' || c = '\r' || c = '\n'

/-- The parameters of successive stretches, the first of which starts on `line`. For each the imports
are gone through in an order of its own. -/
def paramsFrom (orders : Nat → Dict.Listing String) (imports : Dict String) (space : String)
    (line : Nat) : List (List Char) → List Param
  | [] => []
  | segment :: segments =>
    let here := line + (segment.takeWhile isLead).count '\n'
    let others :=
      paramsFrom (fun n => orders (n + 1)) imports space (line + segment.count '\n') segments
    match param? (orders 0) imports space here segment with
    | some p => p :: others
    | none => others

/-- The first constructor signature of a file. -/
def constructorOf (orders : Nat → Dict.Listing String) (source : List Char) : Option Constructor :=
  (Scan.find? (fun _ text => signature? text) source).map fun p =>
    { line := lineAfter p.1
      params := paramsFrom orders (importsOf source) (namespaceOf source)
        (lineAfter (textBefore source p.2.2)) (Chars.splitOn ',' p.2.1) }

end ShopLint.Php
