import ShopLint.Text.Basic
import ShopLint.Text.Case
import ShopLint.Dict

/-!
Class names and what their spelling says. A full name has its namespace segments divided by
backslashes and is written with or without a leading one.
-/

namespace ShopLint.ClassName

/-- A full name without white space around it and without its leading backslash. -/
def bare (name : String) : String := Text.dropStart "\\" (Text.trim name)

def qualify (space name : String) : String := if space = "" then name else space ++ "\\" ++ name

def lastSegment (name : String) : String :=
  match Text.cutLast "\\" name with
  | some (_, last) => last
  | none => name

/-- The class that `name` means in a file of the given namespace, with the imports listed in some
order. A name with a backslash stands for itself; a short name is looked up as written, then without
regard to case, and otherwise belongs to the namespace. -/
def resolveAmong (imports : List (String × String)) (space name : String) : String :=
  let name := Text.trim name
  if name = "" then ""
  else if Text.contains name "\\" then Text.dropStart "\\" name
  else
    match imports.lookup name with
    | some full => full
    | none =>
      match imports.find? fun e => Text.equalFold e.1 name with
      | some (_, full) => full
      | none => qualify space name

/-- The class that `name` means in a file with the given imports and namespace. Of several imports
that match only without regard to case, the first that is listed counts. -/
def resolve (order : Dict.Listing String) (imports : Dict String) (space name : String) : String :=
  resolveAmong (order.list imports) space name

/-- Scalar and pseudo types, which name no class. -/
def builtinTypes : List String :=
  ["array", "bool", "callable", "false", "float", "int", "iterable", "mixed", "null", "object",
    "self", "static", "string", "true", "void"]

def isBuiltin (name : String) : Bool := Text.toLower (Text.dropStart "?" name) ∈ builtinTypes

def isFramework (name : String) : Bool := Text.startsWith (bare name) "Magento\\"

/-- Vendors of extensions, whose code is reported on less. -/
def thirdPartyVendors : List String :=
  ["Aheadworks\\", "Amasty\\", "Amazon\\", "Dotdigitalgroup\\", "Fooman\\", "Klarna\\",
    "Mageplaza\\", "Mirasvit\\", "MSP\\", "PayPal\\Braintree\\", "Smile\\", "Vertex\\", "Webkul\\",
    "Yotpo\\"]

def isThirdParty (name : String) : Bool := thirdPartyVendors.any (Text.startsWith (bare name))

def isCollection (name : String) : Bool := Text.endsWith name "Collection"

def isCollectionFactory (name : String) : Bool := Text.endsWith name "CollectionFactory"

def isRepository (name : String) : Bool :=
  Text.endsWithAny name ["Repository", "RepositoryInterface"]

def isResourceModel (name : String) : Bool :=
  Text.containsAny name ["\\ResourceModel\\", "\\Model\\Resource\\"] && !isCollection name &&
    !isCollectionFactory name

/-- Classes that hold or fetch stored rows: what other code should reach through a repository. -/
def isPersistence (name : String) : Bool :=
  isCollection name || isCollectionFactory name || isResourceModel name

/-- Classes that may depend on the persistence layer. -/
def isPersistenceLayer (name : String) : Bool :=
  isPersistence name || isRepository name || Text.contains name "\\ResourceModel\\"

/-- Types that start a session or open a connection when they are constructed. -/
def expensiveTypes : List String :=
  ["Magento\\Backend\\Model\\Auth\\Session", "Magento\\Backend\\Model\\Session",
    "Magento\\Catalog\\Model\\Session", "Magento\\Checkout\\Model\\Session",
    "Magento\\Customer\\Model\\Session", "Magento\\Framework\\Session\\SessionManager",
    "Magento\\Framework\\Session\\SessionManagerInterface", "Magento\\Framework\\Session\\Generic",
    "Magento\\Newsletter\\Model\\Session", "Magento\\Review\\Model\\Session"]

def isExpensive (name : String) : Bool := Text.dropStart "\\" name ∈ expensiveTypes

/-- Framework classes meant to be extended. -/
def extensionBases : List String :=
  ["Magento\\Backend\\App\\Action", "Magento\\Backend\\Block\\Template",
    "Magento\\Backend\\Block\\Widget\\Form\\Generic",
    "Magento\\Backend\\Block\\Widget\\Grid\\Column\\Renderer\\AbstractRenderer",
    "Magento\\Framework\\App\\Action\\Action", "Magento\\Framework\\App\\Helper\\AbstractHelper",
    "Magento\\Framework\\DataObject", "Magento\\Framework\\Model\\AbstractExtensibleModel",
    "Magento\\Framework\\Model\\AbstractModel",
    "Magento\\Framework\\Model\\ResourceModel\\Db\\AbstractDb",
    "Magento\\Framework\\Model\\ResourceModel\\Db\\Collection\\AbstractCollection",
    "Magento\\Framework\\View\\Element\\AbstractBlock",
    "Magento\\Framework\\View\\Element\\Template",
    "Magento\\Framework\\View\\Element\\UiComponent\\DataProvider\\DataProvider"]

def isExtensionBase (name : String) : Bool :=
  name ∈ extensionBases || Text.startsWith (lastSegment name) "Abstract"

/-- A framework model or block that is not meant to be extended. -/
def isConcreteCore (name : String) : Bool :=
  isFramework name && !isExtensionBase name && Text.containsAny name ["\\Model\\", "\\Block\\"]

/-- The service contract that a model's name suggests. -/
def apiInterface? (name : String) : Option String :=
  if Text.contains (bare name) "\\Model\\" then
    some (Text.replaceFirst "\\Model\\" "\\Api\\Data\\" (bare name) ++ "Interface")
  else none

/-- The model behind a collection, collection factory or resource model. -/
def entity? (name : String) : Option String := do
  let (before, rest) ← Text.cut "\\Model\\ResourceModel\\" (Text.dropStart "\\" name)
  let rest ←
    if isCollection rest || isCollectionFactory rest then (Text.cutLast "\\" rest).map Prod.fst
    else some rest
  if rest = "" then none else some (before ++ "\\Model\\" ++ rest)

/-- The repository contract that a model's name suggests. -/
def repositoryInterface (entity : String) : String :=
  match Text.cut "\\Model\\" entity with
  | some (before, rest) =>
    before ++ "\\Api\\" ++ Text.replaceAll "\\" "" rest ++ "RepositoryInterface"
  | none => entity ++ "RepositoryInterface"

/-- Both names start with the same two segments. -/
def sameModule (a b : String) : Bool :=
  match Text.splitOn '\\' (bare a), Text.splitOn '\\' (bare b) with
  | a₁ :: a₂ :: _, b₁ :: b₂ :: _ => a₁ == b₁ && a₂ == b₂
  | _, _ => false

/-- The service locator and its interface. -/
def objectManagers : List String :=
  ["Magento\\Framework\\ObjectManagerInterface", "Magento\\Framework\\App\\ObjectManager"]

def isObjectManager (name : String) : Bool := objectManagers.any (Text.equalFold name)

end ShopLint.ClassName
