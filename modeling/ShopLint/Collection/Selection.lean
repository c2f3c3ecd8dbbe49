import ShopLint.Dict
import ShopLint.Host
import ShopLint.Text.Case

/-!
Which files a scan looks at: the directory or file it starts from, the extensions it takes, and what
it leaves out.
-/

namespace ShopLint

/-- A selection as given by the user. -/
structure ScanOptions where
  root : String := ""
  extensions : List String := []
  excludedExtensions : List String := []
  excludeDirs : List String := []
  excludeFiles : List String := []
  excludePaths : List String := []
  fixableOnly : Bool := false
  deriving DecidableEq, Repr, Inhabited

def defaultExtensions : List String := ["php", "phtml", "xml", "js"]

/-- Directories that are never entered. -/
def defaultExcludeDirs : List String := [".git", "node_modules"]

/-- An extension without white space around it and one leading dot, in lower case. -/
def normalizeExtension (ext : String) : String := Text.toLower (Text.dropStart "." (Text.trim ext))

/-- The items in their normal form, without the empty ones. -/
def normalizeAll (normalize : String → String) (items : List String) : List String :=
  (items.map normalize).filter (· ≠ "")

/-- A selection in normal form: an absolute root, and extensions in order, each once. -/
structure Selection where
  root : String
  extensions : List String
  excludeDirs : List String
  excludeFiles : List String
  excludePaths : List String
  fixableOnly : Bool
  deriving DecidableEq, Repr

/-- Why there is no selection. -/
inductive SelectionError
  | noRoot
  | home (cause : HomeError)
  deriving DecidableEq, Repr

def SelectionError.message : SelectionError → String
  | noRoot => "scan root is not set"
  | home cause => cause.message

/-- The texts in order, each once. -/
def sortedSet (items : List String) : List String :=
  (Dict.ofList (items.map fun item => (item, ()))).keys

namespace Selection

/-- The extensions that are taken: those given, or the default ones, without the excluded. -/
def allowed (options : ScanOptions) : List String :=
  let given := if options.extensions.isEmpty then defaultExtensions else options.extensions
  let excluded := normalizeAll normalizeExtension options.excludedExtensions
  sortedSet ((normalizeAll normalizeExtension given).filter (· ∉ excluded))

def ofOptions (host : Host) (options : ScanOptions) : Except SelectionError Selection :=
  if Text.trim options.root = "" then .error .noRoot
  else
    match host.absolute options.root with
    | .error e => .error (.home e)
    | .ok root =>
      .ok {
        root := root
        extensions := allowed options
        excludeDirs := normalizeAll Text.trim options.excludeDirs
        excludeFiles := normalizeAll Text.trim options.excludeFiles
        excludePaths := normalizeAll Text.trim options.excludePaths
        fixableOnly := options.fixableOnly }

def allowsExtension (s : Selection) (ext : String) : Bool := ext ∈ s.extensions

def excludesDir (s : Selection) (name : String) : Bool := name ∈ s.excludeDirs

def excludesFile (s : Selection) (name : String) : Bool := name ∈ s.excludeFiles

def excludesPath (s : Selection) (path : String) : Bool := path ∈ s.excludePaths

end Selection

end ShopLint
