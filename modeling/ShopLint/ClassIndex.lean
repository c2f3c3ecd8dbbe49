import ShopLint.Host
import ShopLint.Php.Header

/-!
The classes of a source tree, indexed file by file: where each is declared, what it extends, and what
extends it. A file is looked at once, and the first declaration of a class counts.
-/

namespace ShopLint

/-- `processed` lists the files looked at; the other parts are by full class name. -/
structure ClassIndex where
  processed : List String := []
  files : Dict String := {}
  parents : Dict String := {}
  children : Dict (List String) := {}

/-- What a file declares: its first class and the resolved name of the class it extends, empty when
it extends none. -/
structure Declared where
  className : String
  parent : String
  deriving DecidableEq, Repr

/-- The declaration that a file's content holds. -/
def declaredIn? (order : Dict.Listing String) (content : String) : Option Declared :=
  if content = "" then none
  else
    let source := content.toList
    (Php.classOf source).map fun decl =>
      { className := ClassName.qualify (Php.namespaceOf source) decl.name
        parent :=
          if decl.parent = "" then ""
          else ClassName.resolve order (Php.importsOf source) (Php.namespaceOf source) decl.parent }

/-- What a file declares, as the machine reads it. -/
def Host.declared? (host : Host) (path : String) : Option Declared :=
  declaredIn? (host.order (.parent path)) (host.readOrEmpty path)

namespace ClassIndex

/-- The index with a class declared in a file, unless the class is known. -/
def declare (index : ClassIndex) (path : String) (d : Declared) : ClassIndex :=
  if index.files.contains d.className then index
  else
    let index := { index with files := index.files.insert d.className path }
    if d.parent = "" then index
    else
      { index with
        parents := index.parents.insert d.className d.parent
        children := index.children.alter d.parent fun known => known.getD [] ++ [d.className] }

/-- The index with one more file. -/
def addFile (host : Host) (index : ClassIndex) (path : String) : ClassIndex :=
  if path ∈ index.processed then index
  else
    let index := { index with processed := path :: index.processed }
    match host.declared? path with
    | some d => index.declare path d
    | none => index

def addFiles (host : Host) (index : ClassIndex) (paths : List String) : ClassIndex :=
  paths.foldl (addFile host) index

/-- The classes that extend the given one directly, in order. -/
def childrenOf (index : ClassIndex) (className : String) : List String :=
  ((index.children.get? (ClassName.bare className)).getD []).mergeSort fun a b => decide (a ≤ b)

def fileOf? (index : ClassIndex) (className : String) : Option String :=
  index.files.get? (ClassName.bare className)

def parentOf? (index : ClassIndex) (className : String) : Option String :=
  index.parents.get? (ClassName.bare className)

/-- The chain of parents above a class, up to one without a parent or the first that is in `seen`;
`depth` bounds it. -/
def ancestorsFrom (index : ClassIndex) : Nat → List String → String → List String
  | 0, _, _ => []
  | depth + 1, seen, className =>
    match index.parentOf? className with
    | none => []
    | some parent =>
      if parent ∈ seen then [] else parent :: index.ancestorsFrom depth (parent :: seen) parent

/-- The chain of parents above a class. It stops where it would come round again. -/
def ancestors (index : ClassIndex) (className : String) : List String :=
  index.ancestorsFrom (index.parents.size + 1) [ClassName.bare className] className

def isProcessed (index : ClassIndex) (path : String) : Bool := path ∈ index.processed

/-- How many classes are known. -/
def size (index : ClassIndex) : Nat := index.files.size

/-- The interfaces that a class declares itself, if its file is known and can be read. -/
def interfaces? (host : Host) (orders : Nat → Dict.Listing String) (index : ClassIndex)
    (className : String) : Option (List String) :=
  (index.fileOf? className).bind fun path =>
    let content := host.readOrEmpty path
    if content = "" then none else some (Php.implementsOf orders content.toList)

/-- A service contract that the class implements, by itself or through its ancestors. For classes of
which nothing is known the name decides. The imports of each class are gone through in orders of its
own. -/
def apiInterface? (host : Host) (orders : String → Nat → Dict.Listing String) (index : ClassIndex)
    (className : String) : Option String :=
  match (ClassName.bare className :: index.ancestors className).filterMap
      (fun c => index.interfaces? host (orders c) c) with
  | [] => ClassName.apiInterface? className
  | known => known.flatten.find? fun name => Text.contains name "\\Api\\"

end ClassIndex

end ShopLint
