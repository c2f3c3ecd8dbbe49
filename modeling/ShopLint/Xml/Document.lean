import ShopLint.Text.Basic
import ShopLint.Xml.Token

/-!
XML documents as trees. A document may have several elements at its top and text between them; every
element must be closed, in order and under its own name.
-/

namespace ShopLint.Xml

inductive Node
  | element (name : Name) (attrs : List Attr) (children : List Node)
  | text (content : String)
  | comment
  | other
  deriving Repr

/-- An element whose closing tag has not been reached; its children so far, the last first. -/
structure Pending where
  name : Name
  attrs : List Attr
  children : List Node

def nodeOf : Token → Node
  | .text content => .text content
  | .comment => .comment
  | _ => .other

/-- The nodes at the top of the document, the last first, after all tokens. The pending elements are
those around the present place, the innermost first. -/
def build (top : List Node) : List Pending → List Token → Option (List Node)
  | [], [] => some top
  | _ :: _, [] => none
  | stack, .opening name attrs :: tokens => build top (⟨name, attrs, []⟩ :: stack) tokens
  | [], .closing _ :: _ => none
  | current :: stack, .closing name :: tokens =>
    if current.name ≠ name then none
    else
      let node := Node.element current.name current.attrs current.children.reverse
      match stack with
      | [] => build (node :: top) [] tokens
      | outer :: stack => build top ({ outer with children := node :: outer.children } :: stack) tokens
  | [], token :: tokens => build (nodeOf token :: top) [] tokens
  | current :: stack, token :: tokens =>
    build top ({ current with children := nodeOf token :: current.children } :: stack) tokens

/-- The nodes at the top of the document that a text holds. -/
def parse? (text : List Char) : Option (List Node) := do
  return (← build [] [] (← tokens? text)).reverse

/-- An element: its name, its attributes in order, and what is in it. -/
structure Element where
  name : Name
  attrs : List Attr
  children : List Node

/-- The elements among some nodes. -/
def elementsOf (nodes : List Node) : List Element :=
  nodes.filterMap fun
    | .element name attrs children => some ⟨name, attrs, children⟩
    | _ => none

namespace Element

/-- The value of the first attribute with the given name, whatever its prefix. -/
def attr? (e : Element) (key : String) : Option String :=
  (e.attrs.find? (·.name.key = key)).map Attr.value

def attrD (e : Element) (key fallback : String) : String := (e.attr? key).getD fallback

/-- The text before the first child that is neither text nor a comment. -/
def leadingText : List Node → String
  | .text content :: nodes => content ++ leadingText nodes
  | .comment :: nodes => leadingText nodes
  | _ => ""

def text (e : Element) : String := leadingText e.children

/-- The child elements with the given name, whatever their prefix. -/
def childrenNamed (e : Element) (key : String) : List Element :=
  (elementsOf e.children).filter (·.name.key = key)

end Element

mutual

/-- How deep elements are nested in a node. -/
def Node.depth : Node → Nat
  | .element _ _ children => depthOf children + 1
  | _ => 0

def depthOf : List Node → Nat
  | [] => 0
  | node :: nodes => max node.depth (depthOf nodes)

end

/-- The elements of the given level and those below, level by level; `levels` of them. -/
def levelsFrom : Nat → List Element → List Element
  | 0, _ => []
  | levels + 1, row => row ++ levelsFrom levels (row.flatMap fun e => elementsOf e.children)

/-- All elements of a document, level by level and in order within a level. -/
def allElements (nodes : List Node) : List Element := levelsFrom (depthOf nodes) (elementsOf nodes)

/-- All elements with the given name, whatever their prefix. -/
def elementsNamed (nodes : List Node) (key : String) : List Element :=
  (allElements nodes).filter (·.name.key = key)

/-- All elements that have an attribute of the given name and value. -/
def elementsWith (nodes : List Node) (key value : String) : List Element :=
  (allElements nodes).filter fun e => e.attrs.any fun a => a.name.key = key && a.value = value

/-- The elements reached through a child of the first name and then one of the second. -/
def Element.grandchildren (e : Element) (first second : String) : List Element :=
  (e.childrenNamed first).flatMap (·.childrenNamed second)

end ShopLint.Xml
