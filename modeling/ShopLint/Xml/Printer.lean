import ShopLint.Xml.Document

/-!
XML text of a tree. An element with other elements in it takes one line for each of them, indented by
four spaces a level; one with text only stays on its line.
-/

namespace ShopLint.Xml

/-- A character as it stands in text and in attribute values. What no document can hold is replaced. -/
def escapeChar (c : Char) : List Char :=
  if c = '&' then "&amp;".toList
  else if c = '<' then "&lt;".toList
  else if c = '>' then "&gt;".toList
  else if c = '\'' then "&apos;".toList
  else if c = '"' then "&quot;".toList
  else if isXmlChar c then [c]
  else ['\uFFFD']

def escape (text : String) : List Char := text.toList.flatMap escapeChar

def Name.text (n : Name) : List Char :=
  if n.space = "" then n.key.toList else n.space.toList ++ [':'] ++ n.key.toList

def Attr.text (a : Attr) : List Char := [' '] ++ a.name.text ++ ['=', '"'] ++ escape a.value ++ ['"']

def lineBreak (depth : Nat) : List Char := '\n' :: List.replicate (4 * depth) ' '

def Node.isElement : Node → Bool
  | .element .. => true
  | _ => false

mutual

/-- The text of a node that stands at a depth. Only elements and text are written. -/
def Node.indented (depth : Nat) : Node → List Char
  | .element name attrs [] => ['<'] ++ name.text ++ attrs.flatMap Attr.text ++ ['/', '>']
  | .element name attrs (child :: children) =>
    ['<'] ++ name.text ++ attrs.flatMap Attr.text ++ ['>'] ++ indentedNodes (depth + 1) (child :: children) ++
      (if (child :: children).any Node.isElement then lineBreak depth else []) ++
      ['<', '/'] ++ name.text ++ ['>']
  | .text content => escape content
  | _ => []

def indentedNodes (depth : Nat) : List Node → List Char
  | [] => []
  | node :: nodes =>
    (if node.isElement then lineBreak depth else []) ++ node.indented depth ++ indentedNodes depth nodes

end

/-- The text of a document with one element at its top. -/
def Node.document (root : Node) : List Char := root.indented 0 ++ ['\n']

end ShopLint.Xml
