import ShopLint.Json.Printer
import ShopLint.Settings.Basic
import ShopLint.Text.Case
import ShopLint.Text.Line
import ShopLint.Text.Quoted

/-!
Log lines: a level, the name of the logger, a message, and named values. A line is plain text or a JSON
object.
-/

namespace ShopLint

inductive LogLevel
  | trace
  | debug
  | info
  | warn
  | error
  | off
  deriving DecidableEq, Repr

namespace LogLevel

def rank : LogLevel → Nat
  | trace => 0
  | debug => 1
  | info => 2
  | warn => 3
  | error => 4
  | off => 5

def name : LogLevel → String
  | trace => "trace"
  | debug => "debug"
  | info => "info"
  | warn => "warn"
  | error => "error"
  | off => "off"

def all : List LogLevel := [trace, debug, info, warn, error, off]

/-- The level with a name, in whatever case; `info` for any other text. -/
def ofName (text : String) : LogLevel :=
  (all.find? fun level => Text.toUpper text = Text.toUpper level.name).getD info

/-- The level in brackets, all equally wide. -/
def label : LogLevel → String
  | trace => "[TRACE]"
  | debug => "[DEBUG]"
  | info => "[INFO] "
  | warn => "[WARN] "
  | error => "[ERROR]"
  | off => "[?????]"

end LogLevel

/-- The variable that sets the level when the settings do not. -/
def logLevelEnv : String := "MAGELINT_LOG_LEVEL"

def Settings.logLevel (host : Host) (s : Settings) : LogLevel :=
  .ofName (orDefault s.log.level (host.envVar logLevelEnv))

/-- What is logged: a message and values, each after its name. -/
structure LogEntry where
  level : LogLevel
  name : String
  message : String
  values : List Json.Value

namespace LogEntry

open Json (Value)

/-- The name of a value that has none. -/
def missingName : String := "EXTRA_VALUE_AT_END"

mutual

/-- A value as running text. -/
def plain : Value → String
  | .null => "<nil>"
  | .bool b => if b then "true" else "false"
  | .number literal => numberText literal
  | .string s => s
  | .array items => "[" ++ Text.join " " (plainItems items) ++ "]"
  | .object members => "map[" ++ Text.join " " (plainMembers members) ++ "]"

def plainItems : List Value → List String
  | [] => []
  | v :: rest => plain v :: plainItems rest

def plainMembers : List (String × Value) → List String
  | [] => []
  | (key, v) :: rest => (key ++ ":" ++ plain v) :: plainMembers rest

/-- A number with the fewest digits. -/
def numberText (literal : String) : String :=
  match Binary64.ofDecimal? (.ofNumeral literal.toList) with
  | some b => b.general
  | none => literal

end

/-- A value that names another. -/
def nameText : Value → String
  | .string s => s
  | .null => "%!s(<nil>)"
  | .bool b => s!"%!s(bool={plain (.bool b)})"
  | .number literal => s!"%!s(float64={plain (.number literal)})"
  | v => plain v

/-- Names and values in pairs; a last one without a partner gets a name. -/
def pairs : List Value → List (String × Value)
  | [] => []
  | [v] => [(missingName, v)]
  | name :: v :: rest => (nameText name, v) :: pairs rest

/-- Characters that need no quotes. -/
def isNormal (c : Char) : Bool := '-' ≤ c && c ≤ '~'

/-- A character inside quotes or indented text. -/
def escapeChar (quotes : Bool) (c : Char) : List Char :=
  if quotes && c = '"' then ['\\', '"']
  else if isPrintable c then [c]
  else if c = '\x07' then ['\\', 'a']
  else if c = '\x08' then ['\\', 'b']
  else if c = '\x0c' then ['\\', 'f']
  else if c = '\n' then ['\\', 'n']
  else if c = '\r' then ['\\', 'r']
  else if c = '\t' then ['\\', 't']
  else if c = '\x0b' then ['\\', 'v']
  else if c < ' ' then ['\\', 'x'] ++ Text.hexDigits 2 c.toNat
  else if c.toNat < 0x10000 then ['\\', 'u'] ++ Text.hexDigits 4 c.toNat
  else ['\\', 'U'] ++ Text.hexDigits 8 c.toNat

def escape (quotes : Bool) (text : List Char) : String := String.ofList (text.flatMap (escapeChar quotes))

/-- The lines of a text, indented and marked; nothing stands for an empty last line. -/
def indentLines (text : String) : String :=
  let lines := linesOf text.toList
  let lines := if lines.getLast? = some [] then lines.dropLast else lines
  String.join (lines.map fun line => "  | " ++ escape false line ++ "\n")

/-- The items of a list, in quotes where they hold white space. -/
def listText (items : List Value) : String :=
  let item (v : Value) : String :=
    let text := plain v
    if text.toList.any fun c => c = ' ' || c = '\t' || c = '\n' || c = '\r' then Text.quote text else text
  "[" ++ Text.join ", " (items.map item) ++ "]"

/-- One named value of a plain line. -/
def pairText (name : String) (v : Value) : String :=
  let (text, raw) : String × Bool :=
    match v with
    | .string "" => ("\"\"", true)
    | .array items => (listText items, true)
    | v => (plain v, false)
  if text.toList.contains '\n' then s!"\n  {name}=\n{indentLines text}  "
  else if !raw && text.toList.any (fun c => !isNormal c) then s!" {name}=\"{escape true text.toList}\""
  else s!" {name}={text}"

/-- The entry as a line of plain text. -/
def text (e : LogEntry) : String :=
  let head :=
    if e.name = "" then e.message
    else if e.message = "" then e.name
    else e.name ++ ": " ++ e.message
  let values := pairs e.values
  let tail := if values.isEmpty then "" else ":" ++ String.join (values.map fun p => pairText p.1 p.2)
  s!"{e.level.label} {head}{tail}\n"

/-- The entry as a line of JSON; a later value of a name counts. -/
def json (e : LogEntry) : String :=
  let head := [("@message", Value.string e.message), ("@level", .string e.level.name)] ++
    (if e.name = "" then [] else [("@module", Value.string e.name)])
  let members : Dict Value := Dict.ofList (head ++ (pairs e.values).map fun p => (p.1, p.2.normal?.getD p.2))
  (Value.object members.entries).toText ++ "\n"

/-- What is written of an entry under the given settings: nothing below the level that is set. -/
def written (host : Host) (s : Settings) (e : LogEntry) : String :=
  if e.level.rank < (s.logLevel host).rank then ""
  else if s.switch "Logger.JSONFormat" false then e.json
  else e.text

end LogEntry

end ShopLint
