import ShopLint.Module
import ShopLint.Php.Constructor
import ShopLint.Rule.Basic

/-!
Direct use of the object manager, which hides dependencies from the constructor. Factories, proxies,
interceptors and setup scripts may use it.
-/

namespace ShopLint.ObjectManager

def id : String := "directObjectManager"

def lookupText : String := "ObjectManager::getInstance()"

def inspectFile (orders : Nat → Dict.Listing String) (src : SourceFile) : List Occurrence :=
  let className := Php.classNameOf src.text
  if Text.endsWithAny className ["Factory", "Proxy", "Interceptor"] then []
  else
    let shown := if className = "" then src.path else className
    let lookups := (findAllLines src.text lookupText.toList).map fun line =>
      occurrenceAt src.path line .error
        "ObjectManager::getInstance() used directly; inject the dependency through the constructor"
    let params := ((Php.constructorOf orders src.text).map Php.Constructor.params).getD []
    let injected := (params.filter fun p => ClassName.isObjectManager p.className).map fun p =>
      occurrenceAt src.path p.line .error
        s!"{p.className} is injected into {shown}; inject the concrete dependency or its factory"
    lookups ++ injected

def find (host : Host) (files : Classification) : List Occurrence :=
  let paths := (files.files FileType.php).filter fun path => !Module.isSetupPath path
  inspectEach (fun turn => inspectFile fun place => host.order (.parameter id turn place))
    (loadAll host paths)

def rule : Rule where
  id := id
  target := FileType.php
  name := "Direct ObjectManager usage"
  shortDescription := "ObjectManager used outside factories"
  longDescription := "Fetching objects from the ObjectManager hides dependencies from the constructor " ++
    "and bypasses DI configuration. Inject the dependency or a generated factory instead."
  run := Rule.simple find

end ShopLint.ObjectManager
