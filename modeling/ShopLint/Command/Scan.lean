import ShopLint.Command.Flag
import ShopLint.Gate.Basic
import ShopLint.Report.Rendering
import ShopLint.Scan

/-!
The scan command: a scan, its report written to a file or printed, and the quality gate over it.
-/

namespace ShopLint

/-- How a command ends, unless it succeeds. -/
inductive ExitCode
  | failed
  | gateFailed
  deriving DecidableEq, Repr

def ExitCode.toNat : ExitCode → Nat
  | failed => 1
  | gateFailed => 2

/-- The flags of the scan command. Lists are separated by commas. -/
structure ScanFlags where
  exclude : String := ""
  excludedExtensions : String := ""
  excludeDirs : String := ""
  excludeFiles : String := ""
  format : String := ""
  output : String := ""
  fixableOnly : Bool := false
  failOn : String := ""
  deriving DecidableEq, Repr

inductive ScanArgsError
  | count (given : Nat)
  | emptyPath
  | format (given : String)
  deriving DecidableEq, Repr

def ScanArgsError.message : ScanArgsError → String
  | count given => s!"exactly one target path must be specified, got {given}"
  | emptyPath => "the target path is empty"
  | format given =>
    let names := Text.join ", " Format.names
    s!"the 'format' flag must be one of {names}: {Text.quote given}"

/-- Why a scan command fails. -/
inductive ScanCommandError
  | format (cause : UnknownFormat)
  | scan (cause : ScanError)
  | render (name : String) (kind : Format) (cause : RenderError)
  | print (cause : String)
  | outputPath (cause : HomeError)
  | write (path : String) (cause : Host.WriteError)
  | rule (cause : DispatchFailure)
  | gate (expression : String) (cause : Gate.Failure)
  | gateFailed (expression : String)

namespace ScanCommandError

def message : ScanCommandError → String
  | format cause => s!"unsupported report format: {cause.message}"
  | scan cause => cause.message
  | render name kind cause => s!"failed to render {name} report: {cause.message kind}"
  | print cause => cause
  | outputPath cause => cause.message
  | write path cause => s!"failed to write report to {Text.quote path}: {cause.message}"
  | rule cause => cause.message
  | gate expression cause => cause.message expression
  | gateFailed expression => s!"quality gate failed: {expression}"

def exitCode : ScanCommandError → ExitCode
  | gateFailed _ => .gateFailed
  | _ => .failed

end ScanCommandError

namespace ScanFlags

/-- The flags with the format in lower case, and the path to scan. -/
def check (flags : ScanFlags) : List String → Except ScanArgsError (ScanFlags × String)
  | [path] =>
    if Text.trim path = "" then .error .emptyPath
    else if flags.format = "" then .ok (flags, path)
    else
      let format := Text.toLower flags.format
      match Format.ofName format with
      | .ok _ => .ok ({ flags with format := format }, path)
      | .error _ => .error (.format flags.format)
  | operands => .error (.count operands.length)

/-- The name of the format: as given, else as in the settings, else JSON. -/
def formatName (given : String) (settings : Settings) : String :=
  Text.toLower (Settings.orDefault given (Settings.orDefault settings.report.format Format.json.name))

def options (flags : ScanFlags) (root : String) : ScanOptions :=
  { root := root, excludedExtensions := Text.listItems flags.excludedExtensions
    excludeDirs := Text.listItems flags.excludeDirs, excludeFiles := Text.listItems flags.excludeFiles
    excludePaths := Text.listItems flags.exclude, fixableOnly := flags.fixableOnly }

/-- The expression of the gate: as given, else as in the settings. -/
def gateExpression (flags : ScanFlags) (settings : Settings) : String :=
  Settings.orDefault flags.failOn settings.failOn

/-- The service to ask which rules can be fixed, when that matters. -/
def fixer? (flags : ScanFlags) (settings : Settings) (host : Host) : Option Fixer :=
  if !flags.fixableOnly || settings.fixer.url = "" then none
  else some (.service settings.fixer.url (settings.fixerToken host))

end ScanFlags

/-- The name of a report that goes into a directory, without its ending. -/
def reportFileName : String := "magelint-report"

/-- The file that an output path names. A path that is a directory, or ends like one, names a file in
it. -/
def outputFile (host : Host) (output format : String) : Except HomeError String := do
  let path ← host.absolute output
  if Text.endsWith output "/" || host.isDirAt path then
    return Path.join [path, reportFileName ++ Format.extension format]
  else return path

/-- What a run is given from outside. -/
structure RunContext where
  toolVersion : String := "unknown"
  scanId : String := ""
  now : Instant := .zero
  network : Fixer.Network := fun _ => .error "network is unreachable"
  /-- Where a command prints to. -/
  printer : Sink String String := .reliable

/-- What a command leaves behind: the machine after it, what it printed, the file it saved, and why it
failed. -/
structure ScanOutcome where
  host : Host
  printed : String := ""
  saved : Option (String × String) := none
  error : Option ScanCommandError := none

/-- Puts the text of a report where it belongs. -/
def deliver (printer : Sink String String) (host : Host) (output format text : String) : ScanOutcome :=
  if output = "" then
    let (arrived, fault) := printer.take text
    { host := host, printed := arrived, error := fault.map .print }
  else
    match outputFile host output format with
    | .error cause => { host := host, error := some (.outputPath cause) }
    | .ok path =>
      match host.write path text with
      | (after, some cause) => { host := after, error := some (.write path cause) }
      | (after, none) => { host := after, saved := some (path, text) }

/-- What is wrong after the report has been written: a rule failed, or the gate did. -/
def verdict (expression : String) (result : ScanResult) : Option ScanCommandError :=
  match result.failure with
  | some cause => some (.rule cause)
  | none =>
    match Gate.evaluate expression (.ofReport result.report) with
    | .error cause => some (.gate expression cause)
    | .ok true => some (.gateFailed expression)
    | .ok false => none

namespace ScanFlags

def scanContext (flags : ScanFlags) (c : RunContext) (settings : Settings) (host : Host) : ScanContext :=
  { settings := settings.scan, fixer := flags.fixer? settings host, network := c.network
    lookup := host.envVar, toolVersion := c.toolVersion, scanId := c.scanId, now := c.now }

def renderOptions (c : RunContext) (settings : Settings) : RenderOptions :=
  { toolName := settings.toolName, toolVersion := c.toolVersion
    informationUri := settings.informationUri }

/-- Scans, writes the report and evaluates the gate. The report is written before anything in it can
make the command fail. -/
def run (flags : ScanFlags) (c : RunContext) (settings : Settings) (host : Host) (root : String) :
    ScanOutcome :=
  let name := formatName flags.format settings
  match Format.ofName name with
  | .error cause => { host := host, error := some (.format cause) }
  | .ok format =>
    match (flags.scanContext c settings host).scan host (flags.options root) with
    | .error cause => { host := host, error := some (.scan cause) }
    | .ok result =>
      match format.render host (renderOptions c settings) result.report with
      | .error cause => { host := host, error := some (.render name format cause) }
      | .ok text =>
        let outcome := deliver c.printer host flags.output name text
        match outcome.error with
        | some _ => outcome
        | none => { outcome with error := verdict (flags.gateExpression settings) result }

end ScanFlags

end ShopLint
