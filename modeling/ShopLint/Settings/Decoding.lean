import ShopLint.Duration
import ShopLint.Number.Decimal
import ShopLint.Settings.Basic
import ShopLint.Yaml.Meaning

/-!
Reading the configuration file. Keys that mean nothing are passed over; of two equal keys the later
counts; a value left out, or set to nothing, is the default.
-/

namespace ShopLint.Settings

open Yaml (Node Meaning)

/-- The meaning of a node that is a scalar. -/
def meaning? : Node → Option Meaning
  | .scalar tag text isPlain => Meaning.of? tag text isPlain
  | _ => none

def text? (node : Node) : Option String :=
  match node with
  | .scalar _ written _ => do
    match ← meaning? node with
    | .null => return ""
    | .text s => return s
    | _ => return written
  | _ => none

/-- The whole part of a number with a fraction; what is too small, or just too large, becomes the
smallest number. -/
def truncated? (x : Binary64) : Option Int :=
  let p := Binary64.scale2 x.mantissa x.exponent
  let n : Int := (p.1 / p.2 : Nat)
  if x.negative then some (max (-n) (-Word.signedLimit))
  else if n < Word.signedLimit then some n
  else if n = Word.signedLimit then some (-Word.signedLimit)
  else none

def int? (node : Node) : Option Int := do
  match ← meaning? node with
  | .null => return 0
  | .int n => if Word.isSigned n then some n else none
  | .float x => truncated? x
  | .infinite isNegative => if isNegative then some (-Word.signedLimit) else none
  | _ => none

/-- A length of time: nanoseconds, or numbers with units. -/
def duration? (node : Node) : Option Int := do
  match ← meaning? node with
  | .text s => Duration.parse? s
  | _ => int? node

/-- Spellings of nothing that leave a switch unset; the others turn it off. -/
def unsetWords : List String := ["", "~", "null"]

def switch? (node : Node) : Option (Option Bool) :=
  match node with
  | .scalar tag written isPlain => do
    match ← meaning? node with
    | .bool b => return some b
    | .null =>
      let unset := tag = Meaning.coreTag "null" || (isPlain && written ∈ unsetWords)
      return if unset then none else some false
    | _ => none
  | _ => none

def texts? (node : Node) : Option (List String) :=
  match node with
  | .sequence _ items => items.mapM text?
  | .mapping _ _ => none
  | .scalar _ _ _ => do
    match ← meaning? node with
    | .null => return []
    | _ => none

/-- The key that brings in the entries of other mappings. -/
def isMerge : Node → Bool
  | .scalar tag text isPlain => text = "<<" && (isPlain || tag = Meaning.coreTag "merge")
  | _ => false

mutual

/-- What a mapping sets, on top of `old`. Nothing at all stands for the default. -/
def fields {α : Type} [Inhabited α] (set : String → Node → α → Option α) (old : α) : Node → Option α
  | .mapping _ entries => fieldsIn set old entries
  | .scalar tag text isPlain =>
    match Meaning.of? tag text isPlain with
    | some .null => some default
    | _ => none
  | .sequence _ _ => none

/-- The entries in order. -/
def fieldsIn {α : Type} [Inhabited α] (set : String → Node → α → Option α) (old : α) :
    List (Node × Node) → Option α
  | [] => some old
  | (key, value) :: rest => do
    let new ← if isMerge key then merged set old value else do set (← text? key) value old
    fieldsIn set new rest

/-- The entries of a mapping, or of several of which the first counts most. -/
def merged {α : Type} [Inhabited α] (set : String → Node → α → Option α) (old : α) : Node → Option α
  | .mapping _ entries => fieldsIn set old entries
  | .sequence _ items => mergedAll set old items
  | .scalar _ _ _ => none

def mergedAll {α : Type} [Inhabited α] (set : String → Node → α → Option α) (old : α) :
    List Node → Option α
  | [] => some old
  | .mapping _ entries :: rest => do
    let new ← mergedAll set old rest
    fieldsIn set new entries
  | _ :: _ => none

end

def setLog (key : String) (v : Node) (s : LogSettings) : Option LogSettings :=
  match key with
  | "level" => (text? v).map fun x => { s with level := x }
  | "disable_time" => (switch? v).map fun x => { s with disableTime := x }
  | "json_format" => (switch? v).map fun x => { s with jsonFormat := x }
  | "include_location" => (switch? v).map fun x => { s with includeLocation := x }
  | _ => some s

def setProxy (key : String) (v : Node) (s : ProxySettings) : Option ProxySettings :=
  match key with
  | "host" => (text? v).map fun x => { s with host := x }
  | "port" => (int? v).map fun x => { s with port := x }
  | _ => some s

def setVerify (key : String) (v : Node) (s : Option Bool) : Option (Option Bool) :=
  match key with
  | "verify" => switch? v
  | _ => some s

def setHttp (key : String) (v : Node) (s : HttpSettings) : Option HttpSettings :=
  match key with
  | "debug" => (switch? v).map fun x => { s with debug := x }
  | "retry_count" => (int? v).map fun x => { s with retryCount := x }
  | "retry_wait_time" => (duration? v).map fun x => { s with retryWait := x }
  | "retry_max_wait_time" => (duration? v).map fun x => { s with retryMaxWait := x }
  | "timeout" => (duration? v).map fun x => { s with timeout := x }
  | "tls_client_config" => (fields setVerify s.verify v).map fun x => { s with verify := x }
  | "proxy" => (fields setProxy s.proxy v).map fun x => { s with proxy := x }
  | _ => some s

def setScan (key : String) (v : Node) (s : ScanSettings) : Option ScanSettings :=
  match key with
  | "extensions" => (texts? v).map fun x => { s with extensions := x }
  | "exclude_dirs" => (texts? v).map fun x => { s with excludeDirs := x }
  | "exclude_files" => (texts? v).map fun x => { s with excludeFiles := x }
  | _ => some s

def setFixer (key : String) (v : Node) (s : FixerSettings) : Option FixerSettings :=
  match key with
  | "url" => (text? v).map fun x => { s with url := x }
  | "token_env" => (text? v).map fun x => { s with tokenEnv := x }
  | _ => some s

def setReport (key : String) (v : Node) (s : ReportSettings) : Option ReportSettings :=
  match key with
  | "format" => (text? v).map fun x => { s with format := x }
  | "tool_name" => (text? v).map fun x => { s with toolName := x }
  | "information_uri" => (text? v).map fun x => { s with informationUri := x }
  | _ => some s

def setGate (key : String) (v : Node) (s : String) : Option String :=
  match key with
  | "fail_on" => text? v
  | _ => some s

def setSection (key : String) (v : Node) (s : Settings) : Option Settings :=
  match key with
  | "logger" => (fields setLog s.log v).map fun x => { s with log := x }
  | "http_client" => (fields setHttp s.http v).map fun x => { s with http := x }
  | "scan" => (fields setScan s.scan v).map fun x => { s with scan := x }
  | "fixer" => (fields setFixer s.fixer v).map fun x => { s with fixer := x }
  | "report" => (fields setReport s.report v).map fun x => { s with report := x }
  | "gate" => (fields setGate s.failOn v).map fun x => { s with failOn := x }
  | _ => some s

/-- Why the text of a file holds no settings. -/
inductive DecodeError
  | absent
  | malformed
  deriving DecidableEq, Repr

def decode (text : String) : Except DecodeError Settings :=
  match Node.read text.toList with
  | .absent => .error .absent
  | .malformed => .error .malformed
  | .holds node =>
    match fields setSection {} node with
    | some s => .ok s
    | none => .error .malformed

/-- Why a configuration file could not be loaded. -/
inductive LoadCause
  | file (cause : FileError)
  | directory
  | content (cause : DecodeError)
  deriving DecidableEq, Repr

structure LoadError where
  path : String
  cause : LoadCause
  deriving DecidableEq, Repr

def LoadCause.message (path : String) : LoadCause → String
  | file cause => cause.message
  | directory => s!"'{path}' is a directory, not a file"
  | content .absent => "EOF"
  | content .malformed => "yaml: invalid document"

def LoadError.message (e : LoadError) : String :=
  s!"failed to load config {Text.quote e.path}: {e.cause.message e.path}"

/-- The path can be read as a configuration file: it leads to anything but a directory. -/
def checkPath (host : Host) (path : String) : Except LoadCause Unit :=
  match host.stat path with
  | .error e => .error (.file e)
  | .ok (.dir _) => .error .directory
  | .ok _ => .ok ()

def loadFrom (host : Host) (path : String) : Except LoadCause Settings := do
  checkPath host path
  match host.readDocument path with
  | .error e => .error (.file e)
  | .ok text => (decode text).mapError .content

/-- The settings in a file. The default file need not exist. -/
def load (host : Host) (path : String) : Except LoadError Settings :=
  let isAbsent :=
    match host.stat defaultFile with
    | .error e => e.cause = .noEntry
    | .ok _ => false
  if path = "" && isAbsent then .ok {}
  else
    let path := if path = "" then defaultFile else path
    (loadFrom host path).mapError fun cause => ⟨path, cause⟩

end ShopLint.Settings
