import ShopLint.Finding
import ShopLint.Text.Case
import ShopLint.Xml.Printer

/-!
Hints: the piece of configuration that passes a proxy to a constructor, made from the data of an
occurrence.
-/

namespace ShopLint

open Json (Value)

/-- What a hint is made of. Empty texts were not given. -/
structure Hint where
  className : String := ""
  argument : String := ""
  proxy : String := ""
  /-- The file to put it into. -/
  configFile : String := ""
  deriving DecidableEq, Repr

namespace Hint

/-- The value under a key, or under one that differs in letter case only. -/
def valueOf? (metadata : List (String × Value)) (key : String) : Option Value :=
  match metadata.lookup key with
  | some v => some v
  | none => (metadata.find? fun m => Text.equalFold m.1 key).map Prod.snd

/-- The text under a key, empty when there is none; another value is no text. -/
def text? (metadata : List (String × Value)) (key : String) : Option String :=
  match valueOf? metadata key with
  | none | some .null => some ""
  | some (.string text) => some text
  | some _ => none

def ofMetadata? (metadata : List (String × Value)) : Option Hint := do
  let hint : Hint := {
    className := ← text? metadata "class", argument := ← text? metadata "argument"
    proxy := ← text? metadata "proxy", configFile := ← text? metadata "diFile" }
  if hint.className = "" || hint.proxy = "" then none else some hint

def attr (space key value : String) : Xml.Attr := ⟨⟨space, key⟩, value⟩

def element (key : String) (attrs : List Xml.Attr) (children : List Xml.Node) : Xml.Node :=
  .element ⟨"", key⟩ attrs children

/-- The element that passes the proxy. -/
def toNode (h : Hint) : Xml.Node :=
  element "type" [attr "" "name" h.className] [
    element "arguments" [] [
      element "argument" [attr "" "name" h.argument, attr "xsi" "type" "object"] [.text h.proxy]]]

/-- The element, after a comment that names the file. -/
def text (h : Hint) : String :=
  let comment := if h.configFile = "" then "" else "<!-- " ++ h.configFile ++ " -->\n"
  comment ++ String.ofList h.toNode.document

end Hint

/-- The hint for an occurrence, empty when its data do not tell of a proxy. -/
def hintText (metadata : List (String × Value)) : String :=
  ((Hint.ofMetadata? metadata).map Hint.text).getD ""

end ShopLint
