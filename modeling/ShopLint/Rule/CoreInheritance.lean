import ShopLint.Rule.Basic

/-!
Classes that extend a concrete model or block of the framework.
-/

namespace ShopLint.CoreInheritance

def inspectFile (index : ClassIndex) (src : SourceFile) : Option Occurrence := do
  let decl ← Php.classOf src.text
  let className := Php.classNameOf src.text
  if decl.parent = "" || ClassName.isFramework className || ClassName.isThirdParty className then none
  else
    let parent ← index.parentOf? className
    if !ClassName.isConcreteCore parent then none
    else
      let others := (index.childrenOf parent).length - 1
      return occurrenceAt src.path decl.line .warning
        (s!"{className} extends core class {parent} ({others} other indexed classes extend it); " ++
          "prefer a plugin or preference")

def run (host : Host) (files : Classification) (index : ClassIndex) : ClassIndex × List Occurrence :=
  let paths := files.files FileType.php
  let index := index.addFiles host paths
  (index, (loadAll host paths).filterMap (inspectFile index))

def rule : Rule where
  id := "inheritanceOverCoreClass"
  target := FileType.php
  name := "Inheritance over core class"
  shortDescription := "class extends a concrete Magento model or block"
  longDescription := "Extending concrete core classes couples the code to their internals and breaks " ++
    "on upgrades. Prefer plugins, preferences on interfaces, or composition."
  run host files index := .ok (run host files index)

end ShopLint.CoreInheritance
