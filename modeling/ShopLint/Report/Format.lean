import ShopLint.Text.Basic
import ShopLint.Text.Case
import ShopLint.Text.Quoted

/-!
The formats that a report can be written in.
-/

namespace ShopLint

inductive Format
  | json
  | sarif
  | html
  deriving DecidableEq, Repr

/-- A format that there is not. -/
structure UnknownFormat where
  name : String
  deriving DecidableEq, Repr

def UnknownFormat.message (e : UnknownFormat) : String :=
  s!"method \"Render\" is not implemented for {Text.quote e.name}"

namespace Format

def all : List Format := [json, sarif, html]

def name : Format → String
  | json => "json"
  | sarif => "sarif"
  | html => "html"

def names : List String := all.map name

/-- The format with a name, in any letter case and with blanks around it. -/
def ofName (text : String) : Except UnknownFormat Format :=
  match all.find? (·.name = Text.toLower (Text.trim text)) with
  | some format => .ok format
  | none => .error ⟨text⟩

/-- The ending of files in a format, given by name. -/
def extension (name : String) : String := "." ++ name

end Format

/-- What the writers of reports are told besides the report. Empty texts stand for defaults. -/
structure RenderOptions where
  toolName : String := ""
  toolVersion : String := ""
  informationUri : String := ""
  /-- What is left out in front of the paths shown. -/
  root : String := ""
  deriving DecidableEq, Repr

end ShopLint
