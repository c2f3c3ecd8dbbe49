import ShopLint.Gate.Eval
import ShopLint.Gate.Typing
import ShopLint.Report.Basic
import ShopLint.Text.Quoted

/-!
The quality gate: an expression over the numbers of a report that decides whether a scan fails.
-/

namespace ShopLint.Gate

/-- What a gate expression can ask about a report. -/
structure Summary where
  errors : Int := 0
  warnings : Int := 0
  notes : Int := 0
  rules : List String := []
  deriving DecidableEq, Repr

/-- The number of occurrences, in 64 bits. -/
def Summary.total (s : Summary) : Int := (Int64.ofInt s.errors + Int64.ofInt s.warnings + Int64.ofInt s.notes).toInt

/-- The summary of a report. An occurrence without a severity counts as a warning, and only rules that
occur are listed. -/
def Summary.ofReport (report : Report) : Summary :=
  let counts := report.counts .warning
  { errors := counts.errors, warnings := counts.warnings, notes := counts.notes
    rules := report.occurring.map Finding.ruleId }

/-- The names that an expression can use, with their types. -/
def scope : Scope := [("errors", .int), ("warnings", .int), ("notes", .int), ("total", .int),
  ("rules", .list .string)]

def Summary.env (s : Summary) : Env := [("errors", .int s.errors), ("warnings", .int s.warnings),
  ("notes", .int s.notes), ("total", .int s.total), ("rules", .list (s.rules.map .string))]

/-- The name of the representation of a value, which messages give. -/
def representation (e : Expr) : Value → String
  | .null => "structpb.NullValue"
  | .bool _ => "bool"
  | .int _ => "int64"
  | .uint _ => "uint64"
  | .double _ => "float64"
  | .string _ => "string"
  | .bytes _ => "[]uint8"
  | .timestamp _ => "time.Time"
  | .duration _ => "time.Duration"
  | .list _ =>
    match e with
    | .ident _ => "[]string"
    | .binary .add _ _ => "[]interface \x7b\x7d"
    | _ => "[]ref.Val"
  | .map _ => "map[ref.Val]ref.Val"
  | .type _ => "string"

/-- Why an expression decides nothing. -/
inductive Failure
  | invalid
  | failed (cause : EvalError)
  | notBool (representation : String)
  deriving DecidableEq, Repr

def Failure.message (expression : String) : Failure → String
  | invalid => s!"invalid gate expression {Text.quote expression}"
  | failed cause => s!"failed to evaluate gate expression {Text.quote expression}: {cause.message}"
  | notBool representation =>
    s!"gate expression {Text.quote expression} must evaluate to a bool, got {representation}"

/-- The gate fails the scan. A blank expression never does. -/
def evaluate (expression : String) (summary : Summary) : Except Failure Bool :=
  if Text.trim expression = "" then .ok false
  else
    match Expr.parse? expression.toList with
    | none => .error .invalid
    | some e =>
      if isTyped scope e then
        match eval summary.env e with
        | .ok (.bool b) => .ok b
        | .ok v => .error (.notBool (representation e v))
        | .error cause => .error (.failed cause)
      else .error .invalid

end ShopLint.Gate
