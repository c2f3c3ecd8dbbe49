import ShopLint.Command.Help
import ShopLint.Command.Scan
import ShopLint.Settings.Decoding
import ShopLint.Settings.Validation

/-!
The command line: which command the arguments call, and what it prints and leaves behind.
-/

namespace ShopLint

/-- What a run of the tool leaves behind. -/
structure Outcome where
  host : Host
  exit : Nat := 0
  stdout : String := ""
  stderr : String := ""
  saved : Option (String × String) := none

namespace Outcome

/-- The end of a run by an error. -/
def failed (host : Host) (message : String) : Outcome :=
  { host := host, exit := ExitCode.failed.toNat, stderr := s!"Error executing command: {message}\n" }

def ofScan (o : ScanOutcome) : Outcome :=
  match o.error with
  | none => { host := o.host, stdout := o.printed, saved := o.saved }
  | some e =>
    { failed o.host e.message with exit := e.exitCode.toNat, stdout := o.printed, saved := o.saved }

end Outcome

namespace Command

/-- A text in backquotes where that is possible, else in double quotes. -/
def quoteTopic (text : String) : String :=
  if text.toList.all fun c => c = '\t' || (' ' ≤ c && c ≠ '\x60' && c ≠ '\x7f' && c ≠ '\uFEFF') then
    "\x60" ++ text ++ "\x60"
  else Text.quote text

/-- The help for the command that some words name. -/
def helpFor (operands : List String) : String :=
  match find operands with
  | .ok (c, _) => c.helpText
  | .error _ =>
    let topic := Text.join " " (operands.map quoteTopic)
    s!"Unknown help topic [{topic}]\n" ++ usageWith [configFlag] root

def versionJson (toolVersion : String) : Json.Value :=
  .object [
    ("versions", .object [("version", .string toolVersion), ("golang_version", .string "unknown"),
      ("build_time", .string "unknown")]),
    ("rules", .strings Registry.default.ids)]

def scanFlagsOf (p : ParsedArgs) : ScanFlags :=
  { exclude := p.text "exclude", excludedExtensions := p.text "exclude-ext"
    excludeDirs := p.text "exclude-dir", excludeFiles := p.text "exclude-file", format := p.text "format"
    output := p.text "output", fixableOnly := p.isOn "fixable-only", failOn := p.text "fail-on" }

def runScan (c : RunContext) (settings : Settings) (host : Host) (p : ParsedArgs) : Outcome :=
  if p.operands.isEmpty && !p.hasFlags then { host := host, stdout := scan.helpText }
  else
    match (scanFlagsOf p).check p.operands with
    | .error cause => .failed host cause.message
    | .ok (flags, target) => .ofScan (flags.run c settings host target)

/-- The settings that a run goes by, or what is printed when there are none. -/
def settingsFor (host : Host) (path : String) : Except String Settings :=
  match Settings.load host path with
  | .error e => .error s!"initializing config file function is crashed - {e.message} \n"
  | .ok loaded =>
    match loaded.validate with
    | (_, some fault) => .error (fault.message ++ "\n")
    | (settings, none) => .ok settings

/-- Runs a command whose flags have been read. -/
def runParsed (c : RunContext) (host : Host) (p : ParsedArgs) (command : Command) : Outcome :=
  if p.isOn "help" || command = root then { host := host, stdout := command.helpText }
  else
    match settingsFor host (p.text "config") with
    | .error text => { host := host, exit := ExitCode.failed.toNat, stderr := text }
    | .ok settings =>
      match command with
      | scan => runScan c settings host p
      | version => { host := host, stdout := (versionJson c.toolVersion).toLines ++ "\n" }
      | _ => { host := host, stdout := helpFor p.operands }

/-- Runs the tool with these arguments. -/
def run (c : RunContext) (host : Host) (args : List String) : Outcome :=
  match find args with
  | .error word => .failed host (unknownMessage word)
  | .ok (command, rest) =>
    match Flag.parse command.flags rest with
    | .error e => .failed host e.message
    | .ok parsed => runParsed c host parsed command

end Command

end ShopLint
