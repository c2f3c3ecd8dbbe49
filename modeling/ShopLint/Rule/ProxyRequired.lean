import ShopLint.Area
import ShopLint.Module
import ShopLint.Php.Constructor
import ShopLint.Rule.Basic
import ShopLint.Xml.Document

/-!
Sessions injected without a proxy: they start as soon as the class that asks for them is built.
-/

namespace ShopLint.ProxyRequired

def id : String := "diProxyRequired"

/-- The keys of an occurrence's further data. -/
def classKey : String := "class"

def argumentKey : String := "argument"

def typeKey : String := "type"

def proxyKey : String := "proxy"

def configKey : String := "diFile"

def areaKey : String := "area"

/-- A constructor argument that some configuration file gives a proxy for. -/
structure Proxied where
  className : String
  argument : String
  deriving DecidableEq, Repr

/-- The arguments of one document that are configured with a proxy. -/
def proxiedInDocument (doc : List Xml.Node) : List Proxied :=
  (Xml.elementsNamed doc "type").flatMap fun entry =>
    ((entry.grandchildren "arguments" "argument").filter fun arg =>
        Text.endsWith (Text.trim arg.text) "\\Proxy").map fun arg =>
      ⟨Text.dropStart "\\" (entry.attrD "name" ""), arg.attrD "name" ""⟩

/-- The arguments that a file configures with a proxy; a file that cannot be read gives none. -/
def proxiedIn (host : Host) (path : String) : List Proxied :=
  match host.readDocument path with
  | .error _ => []
  | .ok content =>
    match Xml.parse? content.toList with
    | some doc => proxiedInDocument doc
    | none => []

def data (className : String) (param : Php.Param) (config : Option String) : Dict Json.Value :=
  let area := (config.map Area.ofPath).getD .global
  Dict.ofList [(classKey, .string className), (argumentKey, .string param.name),
    (typeKey, .string param.className), (proxyKey, .string (param.className ++ "\\Proxy")),
    (configKey, .string (config.getD "")), (areaKey, .string area.name)]

def report (host : Host) (path className : String) (param : Php.Param) : Occurrence :=
  let message := s!"{className} receives ${param.name} as {param.className}; " ++
    s!"configure {param.className}\\Proxy for this argument in di.xml"
  { occurrenceAt path param.line .warning message with
    metadata := (data className param (Module.nearestConfig host path)).entries }

/-- The occurrences of one file, given the arguments that have a proxy. -/
def inspectFile (host : Host) (proxied : List Proxied) (turn : Nat) (src : SourceFile) :
    List Occurrence :=
  let className := Php.classNameOf src.text
  if className = "" || ClassName.isThirdParty className || ClassName.isFramework className then []
  else
    match Php.constructorOf (fun place => host.order (.parameter id turn place)) src.text with
    | none => []
    | some ctor =>
      (ctor.params.filter fun p =>
          p.className ≠ "" && ClassName.isExpensive p.className && ⟨className, p.name⟩ ∉ proxied).map
        (report host src.path className)

def find (host : Host) (files : Classification) : List Occurrence :=
  let proxied := (files.files FileType.di).flatMap (proxiedIn host)
  inspectEach (inspectFile host proxied) (loadAll host (files.files FileType.php))

def rule : Rule where
  id := id
  target := FileType.di
  name := "Session dependency without Proxy"
  shortDescription := "session injected without a \\Proxy argument in di.xml"
  longDescription := "Session classes start the PHP session as soon as they are constructed, which " ++
    "breaks full page cache for every page that builds the dependent class. Inject the \\Proxy " ++
    "variant through di.xml so the session starts only when it is used."
  run := Rule.simple find

end ShopLint.ProxyRequired
