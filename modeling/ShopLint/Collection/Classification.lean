import ShopLint.Collection.Selection

/-!
The files of a scan by type. Files that configure dependencies have a type of their own among the XML
files.
-/

namespace ShopLint

/-- Paths by file type. -/
abbrev Classification := Dict (List String)

namespace FileType

def php : String := "php"

def phtml : String := "phtml"

def xml : String := "xml"

def js : String := "js"

/-- XML files whose name ends in `di.xml`. -/
def di : String := "di"

end FileType

namespace Classification

def files (c : Classification) (fileType : String) : List String := (c.get? fileType).getD []

/-- There is at least one file of the type. -/
def has (c : Classification) (fileType : String) : Bool := !(c.files fileType).isEmpty

def total (c : Classification) : Nat := (c.values.map List.length).foldr (· + ·) 0

def types (c : Classification) : List String := c.keys

/-- The classification with one more file of a type. -/
def push (c : Classification) (fileType path : String) : Classification :=
  c.alter fileType fun known => known.getD [] ++ [path]

end Classification

namespace Selection

/-- The type under which a path is classified; none when it is not eligible. -/
def typeOf? (s : Selection) (path : String) : Option String :=
  let name := Path.base path
  let ext := Text.toLower (Text.dropStart "." (Path.ext name))
  if !s.allowsExtension ext || s.excludesFile name || s.excludesPath path then none
  else if ext = FileType.xml && Text.endsWith name "di.xml" then some FileType.di
  else some ext

/-- An empty list for every type that can occur. -/
def emptyClassification (s : Selection) : Classification :=
  let c : Classification := Dict.ofList (s.extensions.map fun ext => (ext, []))
  if s.allowsExtension FileType.xml then c.insert FileType.di [] else c

/-- The eligible ones of some paths, by type. -/
def classify (s : Selection) (paths : List String) : Classification :=
  paths.foldl (fun c path =>
    match s.typeOf? path with
    | some fileType => c.push fileType path
    | none => c) s.emptyClassification

end Selection

end ShopLint
