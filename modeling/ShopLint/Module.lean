import ShopLint.Dict
import ShopLint.Host
import ShopLint.Text.Case

/-!
Modules of a shop, recognised by where their files stand.
-/

namespace ShopLint.Module

/-- Vendor and module of a path below `app/code`, which must go on below the module. -/
def underAppCode : List String → Option (String × String)
  | [] => none
  | segment :: rest =>
    match segment, rest with
    | "app", "code" :: vendor :: package :: _ :: _ =>
      if vendor ≠ "" && package ≠ "" then some (vendor, package) else underAppCode rest
    | _, _ => underAppCode rest

/-- Vendor and package of a path below `vendor`, which must go on below the package. -/
def underVendor : List String → Option (String × String)
  | [] => none
  | segment :: rest =>
    match segment, rest with
    | "vendor", vendor :: package :: _ :: _ =>
      if vendor ≠ "" && package ≠ "" then some (vendor, package) else underVendor rest
    | _, _ => underVendor rest

def layerDirs : List String := ["Block", "Model", "ViewModel", "Controller", "Helper"]

/-- The two directories above the first layer directory; `above` holds the segments passed, the last
first. -/
def aboveLayer (above : List String) : List String → Option (String × String)
  | [] => none
  | segment :: rest =>
    if segment ∈ layerDirs then
      match above with
      | package :: vendor :: _ => if vendor ≠ "" && package ≠ "" then some (vendor, package) else none
      | _ => none
    else aboveLayer (segment :: above) rest

/-- The parts of a package name between dashes, underscores and dots, each in title case. -/
def studly (name : String) : String :=
  let parts := Text.splitOn '-' (Text.replaceAll "." "-" (Text.replaceAll "_" "-" name))
  String.join ((parts.filter (· ≠ "")).map Text.toTitle)

/-- A package name without the mark of the platform in front. -/
def withoutPlatform (name : String) : String :=
  if Text.startsWith name "magento2-" then Text.dropStart "magento2-" name
  else Text.dropStart "magento-" name

/-- The name of a vendor package, if nothing of it is empty. -/
def packageName? (vendor package : String) : Option String :=
  let vendor := studly vendor
  let name := studly (withoutPlatform (Text.toLower package))
  if vendor ≠ "" && name ≠ "" then some (vendor ++ "_" ++ name) else none

/-- The module that a file belongs to, as `Vendor_Module`. -/
def nameOf? (path : String) : Option String :=
  let segments := Path.segments path
  match underAppCode segments with
  | some (vendor, package) => some (vendor ++ "_" ++ package)
  | none =>
    match (underVendor segments).bind fun p => packageName? p.1 p.2 with
    | some name => some name
    | none => (aboveLayer [] segments).map fun p => p.1 ++ "_" ++ p.2

/-- The paths by module; those without one are left out. -/
def group (paths : List String) : Dict (List String) :=
  paths.foldl (fun groups path =>
    match nameOf? path with
    | some name => groups.alter name fun known => known.getD [] ++ [path]
    | none => groups) {}

/-- A directory of the path, not its last segment, has the given name. -/
def hasDirectory (path name : String) : Bool := name ∈ (Path.segments path).dropLast

def isBlockFile (path : String) : Bool := hasDirectory path "Block"

def isSetupPath (path : String) : Bool := hasDirectory path "Setup" || hasDirectory path "setup"

def isAppCode (dir : String) : Bool := Path.base dir = "code" && Path.base (Path.dir dir) = "app"

/-- Looks for `etc/di.xml` in `dir` and upward. The walk ends after a directory with
`registration.php`, below `app/code` and at the top; `depth` bounds it. -/
def nearestConfigFrom (host : Host) : Nat → String → Option String
  | 0, _ => none
  | depth + 1, dir =>
    let candidate := Path.join [dir, "etc", "di.xml"]
    if host.isFileAt candidate then some candidate
    else if host.existsAt (Path.join [dir, "registration.php"]) then none
    else if Path.dir dir = dir || isAppCode (Path.dir dir) then none
    else nearestConfigFrom host depth (Path.dir dir)

/-- The dependency configuration nearest to a file, upward within its module. -/
def nearestConfig (host : Host) (path : String) : Option String :=
  nearestConfigFrom host (path.length + 1) (Path.dir path)

end ShopLint.Module
