import ShopLint.Collection.Selection
import ShopLint.Duration
import ShopLint.Report.Format
import ShopLint.Settings.Basic
import ShopLint.Url

/-!
Checking settings and bringing them into normal form. What was changed before a fault was found stays
changed.
-/

namespace ShopLint

/-- What is wrong with settings. -/
inductive SettingsFault
  | retryCount (n : Int)
  | negativeTime (name : String) (time : Int)
  | longTime (name : String) (time : Int)
  | host (cause : Url.Error)
  | port (n : Int)
  | emptyExtension (position : Nat)
  | excludedPath (dir : String)
  | format (name : String)
  deriving DecidableEq, Repr

/-- The section of the settings with a fault. -/
inductive SettingsSection
  | http
  | scan
  | report
  | fixer
  deriving DecidableEq, Repr

structure InvalidSettings where
  part : SettingsSection
  fault : SettingsFault
  deriving DecidableEq, Repr

namespace Settings

/-- The longest time that can be set. -/
def maxTime : Int := 100 * Duration.second

def maxRetries : Int := 20

def maxPort : Int := 65535

end Settings

def SettingsFault.message : SettingsFault → String
  | retryCount n => s!"retry_count must be between 0 and {Settings.maxRetries}: {n}"
  | negativeTime name time =>
    s!"invalid duration for {Text.quote name}: {Duration.text time} cannot be negative"
  | longTime name time =>
    s!"{Text.quote name} duration is too long: {Duration.text time} exceeds maximum of {Duration.text Settings.maxTime}"
  | host cause => s!"invalid host URL: {cause.message}"
  | port n => s!"port must be between 1 and {Settings.maxPort}, got {n}"
  | emptyExtension position => s!"extension #{position} is empty"
  | excludedPath dir => s!"exclude_dirs entries are directory names, not paths: {Text.quote dir}"
  | format name => s!"unknown report format {Text.quote name}"

def SettingsSection.name : SettingsSection → String
  | http => "http_client"
  | scan => "scan"
  | report => "report"
  | fixer => "fixer"

def InvalidSettings.message (e : InvalidSettings) : String :=
  s!"YAML global config: {e.part.name} directive is invalid: {e.fault.message}"

/-- What is said of settings that are missing altogether. -/
def missingSettings : String := "YAML global config: configuration object is nil"

/-- The client goes through a proxy: one is set and can be used. -/
def ClientOptions.usesProxy (c : ClientOptions) : Bool :=
  c.proxy ≠ "" && (match Url.check c.proxy with | .ok () => true | .error _ => false)

namespace Settings

def checkTime (name : String) (time : Int) : Option SettingsFault :=
  if time < 0 then some (.negativeTime name time)
  else if maxTime < time then some (.longTime name time)
  else none

/-- A host with a scheme and without slashes at its end. -/
def normalHost (host : String) : String :=
  Text.trimEndChar '/' (if Text.contains host "://" then host else "http://" ++ host)

def checkHost (host : String) : Option SettingsFault :=
  match Url.check host with
  | .ok () => none
  | .error e => some (.host e)

/-- A proxy counts only with both host and port. -/
def validateProxy (p : ProxySettings) : ProxySettings × Option SettingsFault :=
  if p.host = "" || p.port = 0 then (p, none)
  else
    let p := { p with host := normalHost p.host }
    match checkHost p.host with
    | some fault => (p, some fault)
    | none => (p, if p.port < 1 || maxPort < p.port then some (.port p.port) else none)

def checkTimes (s : HttpSettings) : Option SettingsFault :=
  ((checkTime "RetryMaxWaitTime" s.retryMaxWait).or (checkTime "RetryWaitTime" s.retryWait)).or
    (checkTime "Timeout" s.timeout)

def validateHttp (s : HttpSettings) : HttpSettings × Option SettingsFault :=
  if s.retryCount < 0 || maxRetries < s.retryCount then (s, some (.retryCount s.retryCount))
  else
    match checkTimes s with
    | some fault => (s, some fault)
    | none =>
      let (proxy, fault) := validateProxy s.proxy
      ({ s with proxy := proxy }, fault)

/-- Extensions in normal form up to the first that is empty, whose position is told. -/
def validateExtensions (position : Nat) : List String → List String × Option SettingsFault
  | [] => ([], none)
  | ext :: rest =>
    let normal := normalizeExtension ext
    if normal = "" then (ext :: rest, some (.emptyExtension position))
    else
      let (rest, fault) := validateExtensions (position + 1) rest
      (normal :: rest, fault)

def isPathLike (dir : String) : Bool := dir.toList.any fun c => c = '/' || c = '\\'

def validateScan (s : ScanSettings) : ScanSettings × Option SettingsFault :=
  let (extensions, fault) := validateExtensions 1 s.extensions
  ({ s with extensions := extensions }, fault.or ((s.excludeDirs.find? isPathLike).map .excludedPath))

def validateReport (s : ReportSettings) : ReportSettings × Option SettingsFault :=
  if s.format = "" then (s, none)
  else
    let s := { s with format := Text.toLower s.format }
    (s, if s.format ∈ Format.names then none else some (.format s.format))

def validateFixer (s : FixerSettings) : FixerSettings × Option SettingsFault :=
  if s.url = "" then (s, none)
  else
    let s := { s with url := normalHost s.url }
    (s, checkHost s.url)

/-- The settings in normal form and the first fault that was found in them. -/
def validate (s : Settings) : Settings × Option InvalidSettings :=
  let (http, fault) := validateHttp s.http
  let s := { s with http := http }
  match fault with
  | some fault => (s, some ⟨.http, fault⟩)
  | none =>
    let (scan, fault) := validateScan s.scan
    let s := { s with scan := scan }
    match fault with
    | some fault => (s, some ⟨.scan, fault⟩)
    | none =>
      let (report, fault) := validateReport s.report
      let s := { s with report := report }
      match fault with
      | some fault => (s, some ⟨.report, fault⟩)
      | none =>
        let (fixer, fault) := validateFixer s.fixer
        ({ s with fixer := fixer }, fault.map (⟨.fixer, ·⟩))

end Settings

end ShopLint
