import ShopLint.Module
import ShopLint.Php.Constructor
import ShopLint.Rule.Basic

/-!
Collections and resource models injected where a repository should be.
-/

namespace ShopLint.RepositoryUse

def id : String := "repositoryOverCollection"

/-- A note in a block, an error across modules, a warning otherwise. -/
def severity (path className dependency : String) : Severity :=
  if Module.isBlockFile path then .note
  else if !ClassName.sameModule className dependency then .error
  else .warning

def advice (host : Host) (orders : String → Nat → Dict.Listing String) (index : ClassIndex)
    (dependency : String) : String :=
  match ClassName.entity? dependency with
  | none => "use a repository instead"
  | some entity =>
    match index.apiInterface? host orders entity with
    | some contract => s!"use {ClassName.repositoryInterface entity} with {contract}"
    | none => s!"use {ClassName.repositoryInterface entity}"

def inspectFile (host : Host) (index : ClassIndex) (turn : Nat) (src : SourceFile) :
    List Occurrence :=
  let className := Php.classNameOf src.text
  if className = "" || ClassName.isPersistenceLayer className || ClassName.isThirdParty className then []
  else
    match Php.constructorOf (fun place => host.order (.parameter id turn place)) src.text with
    | none => []
    | some ctor =>
      let found := ctor.params.filter fun p => p.className ≠ "" && ClassName.isPersistence p.className
      found.mapIdx fun place p =>
        let orders (c : String) (n : Nat) := host.order (.interface turn place c n)
        occurrenceAt src.path p.line (severity src.path className p.className)
          s!"{className} injects {p.className} as ${p.name}; {advice host orders index p.className}"

def run (host : Host) (files : Classification) (index : ClassIndex) : ClassIndex × List Occurrence :=
  let paths := files.files FileType.php
  let index := index.addFiles host paths
  let sources := loadAll host (paths.filter fun path => !Module.isSetupPath path)
  (index, inspectEach (inspectFile host index) sources)

def rule : Rule where
  id := id
  target := FileType.php
  name := "Collection instead of repository"
  shortDescription := "collection or resource model injected directly"
  longDescription := "Collections and resource models are persistence internals. Code outside the " ++
    "persistence layer should depend on repositories and Api interfaces."
  run host files index := .ok (run host files index)

end ShopLint.RepositoryUse
