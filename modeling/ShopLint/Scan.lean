import ShopLint.Ci
import ShopLint.Collection.Walk
import ShopLint.Dispatch
import ShopLint.Fixer
import ShopLint.Registry
import ShopLint.Revision
import ShopLint.Settings.Basic
import ShopLint.Text.Quoted

/-!
Scans: from the options to a report. A scan collects files, runs the rules of a registry over them and
notes which revision of the tree it saw. It is known by a random UUID of version 4.
-/

namespace ShopLint

namespace ScanId

/-- The byte with the bits that tell the version or the variant set at the given place. -/
def marked (place : Nat) (byte : UInt8) : UInt8 :=
  if place = 6 then 0x40 + byte % 0x10
  else if place = 8 then 0x80 + byte % 0x40
  else byte

/-- The digits of the bytes, the first of which stands at the given place, with dashes between the
groups. -/
def digitsFrom (place : Nat) : List UInt8 → List Char
  | [] => []
  | byte :: bytes =>
    (if place ∈ [4, 6, 8, 10] then ['-'] else []) ++ Text.hexDigits 2 (marked place byte).toNat ++
      digitsFrom (place + 1) bytes

/-- The identifier made of 16 random bytes. -/
def ofBytes (bytes : List UInt8) : String := String.ofList (digitsFrom 0 (bytes.take 16))

end ScanId

/-- What a scan goes by, the tree and the options apart. -/
structure ScanContext where
  settings : ScanSettings := {}
  registry : Registry := Registry.default
  /-- Asked only when rules without a fix are to be left out. -/
  fixer : Option Fixer := none
  network : Fixer.Network := fun _ => .error "network is unreachable"
  /-- The variables of the build service, an empty text for those that are not set. -/
  lookup : String → String := fun _ => ""
  toolVersion : String := ""
  scanId : String := ""
  now : Instant := .zero

structure ScanResult where
  report : Report
  problems : List CollectProblem := []
  diagnostics : List Diagnostic := []
  stats : DispatchStats := {}
  failure : Option DispatchFailure := none

/-- A scan that gives no report at all. -/
structure ScanError where
  cause : SelectionError

def ScanError.message (e : ScanError) : String :=
  s!"failed to prepare scan configuration: {e.cause.message}"

namespace ScanContext

/-- The options with the settings worked in: extensions only where none are given, directories and
files to leave out besides those given. -/
def complete (c : ScanContext) (options : ScanOptions) : ScanOptions :=
  { options with
    extensions := if options.extensions.isEmpty then c.settings.extensions else options.extensions
    excludeDirs := Text.mergeLists [defaultExcludeDirs, c.settings.excludeDirs, options.excludeDirs]
    excludeFiles := Text.mergeLists [c.settings.excludeFiles, options.excludeFiles] }

/-- Branch and commit of the tree: from its repository, and if that names no commit from the build
service. -/
def revision (c : ScanContext) (host : Host) (root : String) : String × String :=
  let found := (Revision.ofPath host root).1
  if found.commit ≠ "" then (found.branch, found.commit)
  else
    match Ci.detect c.lookup with
    | none => (found.branch, found.commit)
    | some build => (Settings.orDefault found.branch build.branch, build.commit)

/-- The rules that can be fixed; none if nobody can tell. -/
def fixable (c : ScanContext) : List String :=
  match c.fixer with
  | none => []
  | some fixer => (fixer.fixableRules c.network).toOption.getD []

/-- The report before any rule has run. -/
def emptyReport (c : ScanContext) (host : Host) (root : String) : Report :=
  let (branch, commit) := c.revision host root
  { info := { scanId := c.scanId, path := root, generatedAt := c.now.toUniversal,
              toolVersion := c.toolVersion, branch := branch, commit := commit } }

def dispatchOptions (c : ScanContext) (s : Selection) : DispatchOptions :=
  { fixableOnly := s.fixableOnly, fixable := if s.fixableOnly then c.fixable else [] }

/-- Runs the rules over the files of a selection. -/
def scanSelection (c : ScanContext) (host : Host) (s : Selection) : ScanResult :=
  let collected := collect host s
  let (processors, diagnostics) := c.registry.build true
  let (after, failure) := dispatch host collected.classification (c.dispatchOptions s)
    { report := c.emptyReport host s.root } processors
  { report := after.report, problems := collected.problems, diagnostics := diagnostics
    stats := after.stats, failure := failure }

/-- Scans the tree that the options name. A rule that fails leaves the report of those before it. -/
def scan (c : ScanContext) (host : Host) (options : ScanOptions) : Except ScanError ScanResult :=
  match Selection.ofOptions host (c.complete options) with
  | .error cause => .error ⟨cause⟩
  | .ok s => .ok (c.scanSelection host s)

end ScanContext

end ShopLint
