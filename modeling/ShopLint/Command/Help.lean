import ShopLint.Command.Flag
import ShopLint.Settings.Basic
import ShopLint.Text.Case

/-!
The commands of the tool, their flags, and the help that each of them gives.
-/

namespace ShopLint

inductive Command
  | root
  | help
  | scan
  | version
  deriving DecidableEq, Repr

namespace Command

def toolName : String := "magelint"

/-- The commands under the root, in the order of their names. -/
def subcommands : List Command := [help, scan, version]

def name : Command → String
  | root => toolName
  | help => "help"
  | scan => "scan"
  | version => "version"

/-- The name with those above it. -/
def path : Command → String
  | root => toolName
  | c => toolName ++ " " ++ c.name

/-- What follows the path on a command line. -/
def operands : Command → String
  | root | help => " [command]"
  | scan =>
    " [--exclude PATHS] [--exclude-ext EXTS] [--exclude-dir DIRS] [--exclude-file FILES]" ++
      " [--format/-f FORMAT] [--output/-o PATH] [--fixable-only] [--fail-on EXPR] PATH"
  | version => ""

/-- The command in one line. -/
def short : Command → String
  | root => "Magelint is a static analyser for Magento 2 code bases."
  | help => "Help about any command"
  | scan => "Analyse a Magento 2 source tree and render a report"
  | version => "Print the version number of the application and the bundled rules"

/-- What the command does, at the top of its help. -/
def description : Command → List String
  | root => [
    "Magelint walks a Magento 2 source tree, runs structural rules over PHP classes,",
    "\ttemplates, XML configuration and JavaScript, and renders the findings as JSON, SARIF or HTML."]
  | help => [
    "Help provides help for any command in the application.",
    s!"Simply type {toolName} help [path to command] for full details."]
  | scan => [
    "Analyse a Magento 2 source tree and render a report.",
    "",
    "Files are classified as php, phtml, xml, js and di (di.xml) and every rule runs over the",
    "bucket it targets. Rules that target an empty bucket are skipped.",
    "",
    "The --fail-on expression is CEL over errors, warnings, notes, total and rules. When it",
    "evaluates to true the command exits with code 2."]
  | version => [short version]

def examples : Command → List String
  | scan => [
    "  # Scan a Magento installation and print a JSON report",
    "  magelint scan /var/www/magento",
    "",
    "  # Scan a single module and write a SARIF report",
    "  magelint scan --format sarif --output magelint.sarif app/code/Acme/Widget",
    "",
    "  # Skip vendor code and JavaScript",
    "  magelint scan --exclude-dir vendor --exclude-ext js /var/www/magento",
    "",
    "  # Write an HTML report into a directory",
    "  magelint scan --format html --output reports/ /var/www/magento",
    "",
    "  # Run only rules the configured fixer can rewrite",
    "  magelint scan --fixable-only /var/www/magento",
    "",
    "  # Fail the build on any error or on raw SQL",
    "  magelint scan --fail-on 'errors > 0 || \"rawSqlQuery\" in rules' /var/www/magento"]
  | _ => []

/-- The flag of every command that names the settings file. -/
def configFlag : Flag :=
  { name := "config", usage := s!"config file (default is ./{Settings.defaultFile} when present)" }

def helpFlag (c : Command) : Flag :=
  { name := "help", letter := some 'h', kind := .switch
    usage := if c = scan then "Show help for the scan command." else s!"help for {c.name}" }

def scanFlags : List Flag := [
  { name := "exclude"
    usage := "Comma separated list of absolute file paths to skip. Paths are compared literally." },
  { name := "exclude-dir"
    usage := "Comma separated list of directory names that are not descended into." },
  { name := "exclude-ext", usage := "Comma separated list of file extensions to skip (e.g., js,xml)." },
  { name := "exclude-file", usage := "Comma separated list of file names to skip." },
  { name := "fail-on"
    usage := "CEL expression over errors, warnings, notes, total and rules. The command exits with code 2 " ++
      "when it is true." },
  { name := "fixable-only", kind := .switch
    usage := "Run only the rules the configured fixer service can rewrite." },
  { name := "format", letter := some 'f'
    usage := "Format for the report: json, sarif or html. Defaults to report.format from the config, " ++
      "then json." },
  helpFlag scan,
  { name := "output", letter := some 'o'
    usage := "Path to the output file or directory. The report is printed to stdout when omitted." }]

/-- The flags listed as the command's own, in the order of their names. -/
def ownFlags : Command → List Flag
  | root => [configFlag, helpFlag root]
  | scan => scanFlags
  | c => [helpFlag c]

/-- All flags that the command takes. -/
def flags : Command → List Flag
  | root => ownFlags root
  | c => configFlag :: c.ownFlags

/-- How the command is used. -/
def usageLine : Command → String
  | help => s!"{help.path}{help.operands} [flags]"
  | c => c.path ++ c.operands

def padEnd (width : Nat) (text : String) : String :=
  text ++ String.ofList (List.replicate (width - text.length) ' ')

/-- The usage of a command of which some flags are listed as its own. -/
def usageWith (own : List Flag) (c : Command) : String :=
  let examples := if c.examples.isEmpty then [] else ["", "Examples:"] ++ c.examples
  let listed := if c = root then
      ["", "Available Commands:"] ++ subcommands.map fun s => s!"  {padEnd 11 s.name} {s.short}"
    else []
  let shared := if c = root then [] else ["", "Global Flags:", Flag.usages [configFlag]]
  let more := if c = root then ["", s!"Use \"{toolName} [command] --help\" for more information about a command."]
    else []
  String.join ((["Usage:", "  " ++ c.usageLine] ++ examples ++ listed ++ ["", "Flags:", Flag.usages own] ++
    shared ++ more).map (· ++ "\n"))

def usage (c : Command) : String := usageWith c.ownFlags c

/-- The description and the usage. -/
def helpText (c : Command) : String := Text.join "\n" c.description ++ "\n\n" ++ c.usage

/-- The distances of a text extended by `c` from all starts of `b` but the empty one. `row` holds those
of the text itself, and `left` is the one just before. -/
def nextRow (c : UInt8) : Nat → List Nat → List UInt8 → List Nat
  | left, diagonal :: above :: row, d :: b =>
    let here := if c = d then diagonal else min (min left above) diagonal + 1
    here :: nextRow c here (above :: row) b
  | _, _, _ => []

/-- How many bytes have to be inserted, erased or replaced to come from one text to the other. -/
def distance (a b : String) : Nat :=
  let b := b.toUTF8.toList
  let last := a.toUTF8.toList.foldl (fun row c =>
    let left := row.headD 0 + 1
    left :: nextRow c left row b) (List.range (b.length + 1))
  last.getLast?.getD 0

/-- The commands that a mistyped name may have meant: those that start with it, and those two bytes away. -/
def suggestions (typed : String) : List String :=
  let typed := Text.toLower typed
  ([scan, version].map name).filter fun name =>
    distance typed name ≤ 2 || Text.startsWith name typed

/-- No command has this name. -/
def unknownMessage (typed : String) : String :=
  let hints := suggestions typed
  let more := if hints.isEmpty then ""
    else "\n\nDid you mean this?\n" ++ String.join (hints.map fun h => "\t" ++ h ++ "\n")
  s!"unknown command {Text.quote typed} for {Text.quote toolName}" ++ more

/-- The argument is a flag whose value is the next one, as far as can be told without knowing the
command. -/
def takesValue (arg : String) : Bool :=
  !Text.contains arg "=" &&
    (Text.startsWith arg "--" || (Text.startsWith arg "-" && arg.utf8ByteSize = 2))

/-- The arguments that are neither flags nor their values. -/
def words : List String → List String
  | [] => []
  | [arg] => if arg = "" || Text.startsWith arg "-" then [] else [arg]
  | arg :: next :: args =>
    if arg = "--" then []
    else if takesValue arg then
      match args with
      | [] => []
      | args => words args
    else if arg = "" || Text.startsWith arg "-" then words (next :: args)
    else arg :: words (next :: args)

/-- The command that the arguments name and the arguments left for it. -/
def find (args : List String) : Except String (Command × List String) :=
  match words args with
  | [] => .ok (root, args)
  | word :: _ =>
    match subcommands.find? (·.name = word) with
    | some c => .ok (c, args.erase word)
    | none => .error word

end Command

end ShopLint
