import ShopLint.Area
import ShopLint.Rule.Basic
import ShopLint.Xml.Document

/-!
Configuration for one area in a file that all areas load.
-/

namespace ShopLint.AreaScope

/-- The occurrence for a class that an entry of the given kind configures. -/
def check (src : SourceFile) (kind className : String) : Option Occurrence :=
  if className = "" || ClassName.isFramework className || ClassName.isThirdParty className then none
  else
    (Area.ofClass? className).map fun area =>
      occurrenceAt src.path (findLine src.text ("\"" ++ className ++ "\"").toList) .note
        s!"{kind} {className} looks {area.name} specific; move it to etc/{area.name}/di.xml"

def inspectFile (src : SourceFile) : List Occurrence :=
  match Xml.parse? src.text with
  | none => []
  | some doc =>
    (Xml.elementsNamed doc "type").filterMap (fun e => check src "type" (e.attrD "name" "")) ++
      (Xml.elementsNamed doc "preference").filterMap fun e => check src "preference" (e.attrD "type" "")

def find (host : Host) (files : Classification) : List Occurrence :=
  let paths := (files.files FileType.di).filter fun path => Area.ofPath path = .global
  (loadDocuments host paths).flatMap inspectFile

def rule : Rule where
  id := "diAreaScope"
  target := FileType.di
  name := "DI configuration in the wrong area"
  shortDescription := "area specific class configured in global di.xml"
  longDescription := "Configuration in etc/di.xml is loaded for every area. Types and preferences " ++
    "for adminhtml or frontend classes belong in etc/<area>/di.xml."
  run := Rule.simple find

end ShopLint.AreaScope
