import ShopLint.Php.ClassName

/-!
Areas of a shop: the parts of it for which configuration can be kept apart.
-/

namespace ShopLint

inductive Area
  | global
  | frontend
  | adminhtml
  | webapiRest
  | webapiSoap
  | crontab
  | graphql
  deriving DecidableEq, Repr

namespace Area

def name : Area → String
  | global => "global"
  | frontend => "frontend"
  | adminhtml => "adminhtml"
  | webapiRest => "webapi_rest"
  | webapiSoap => "webapi_soap"
  | crontab => "crontab"
  | graphql => "graphql"

/-- The areas with a directory of their own, in the order in which they are looked for. -/
def withDirectory : List Area := [frontend, adminhtml, webapiRest, webapiSoap, crontab, graphql]

/-- The part of a path that shows it belongs to the area. -/
def segment (area : Area) : String := "/etc/" ++ area.name ++ "/"

/-- The area that a configuration file's path belongs to. -/
def ofPath (path : String) : Area :=
  (withDirectory.find? fun area => Text.contains path area.segment).getD global

def adminhtmlMarkers : List String :=
  ["\\adminhtml\\", "\\admin\\", "\\ui\\component\\", "\\ui\\dataprovider\\"]

def frontendMarkers : List String :=
  ["\\block\\", "\\frontend\\", "\\customer\\controller\\", "\\checkout\\controller\\",
    "\\catalog\\controller\\", "\\cart\\controller\\", "\\controller\\customer\\",
    "\\controller\\checkout\\", "\\controller\\catalog\\", "\\controller\\cart\\"]

/-- The area that a class is meant for, as far as its name tells. -/
def ofClass? (className : String) : Option Area :=
  let name := "\\" ++ Text.toLower (ClassName.bare className) ++ "\\"
  if Text.containsAny name adminhtmlMarkers then some adminhtml
  else if Text.containsAny name frontendMarkers then some frontend
  else none

end Area

end ShopLint
