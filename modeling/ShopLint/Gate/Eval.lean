import ShopLint.Gate.Expr
import ShopLint.Gate.Value
import ShopLint.Pattern.Parser

/-!
The value of a gate expression. Conjunction, disjunction and the tests over ranges need not look at
every part: where the parts that have a value settle the result, an error in another does not count.
-/

namespace ShopLint.Gate

open Value

/-- The outcome of running an expression. -/
abbrev Outcome := Except EvalError Value

/-- The names in use and their values. -/
abbrev Env := List (String × Value)

/-- The types that can be written as names; one that a variable has is hidden. -/
def typeValues : List String := ["bool", "bytes", "double", "google.protobuf.Duration",
  "google.protobuf.Timestamp", "int", "list", "map", "null_type", "string", "type", "uint"]

def Env.value? (env : Env) (name : String) : Option Value :=
  match env.lookup name with
  | some v => some v
  | none => if name ∈ typeValues then some (.type name) else none

def Literal.value : Literal → Value
  | .null => .null
  | .bool b => .bool b
  | .int n => .int n
  | .uint n => .uint n
  | .double x => .double x
  | .string s => .string s
  | .bytes b => .bytes b

/-- A truth value; anything else is as bad as an error. -/
def truth : Outcome → Except EvalError Bool
  | .ok (.bool b) => .ok b
  | .ok _ => .error .noSuchOverload
  | .error e => .error e

/-- `unit` when both are `unit`, and the other truth value as soon as one is that; otherwise the first
error. -/
def settle (unit : Bool) (a b : Outcome) : Outcome :=
  match truth a, truth b with
  | .ok x, .ok y => .ok (.bool (if x = unit then y else x))
  | .ok x, .error e => if x = unit then .error e else .ok (.bool x)
  | .error e, .ok y => if y = unit then .error e else .ok (.bool y)
  | .error e, .error _ => .error e

def UnaryOp.apply : UnaryOp → Value → Outcome
  | .not, .bool b => .ok (.bool !b)
  | .negate, .int n => int? (-n)
  | .negate, .double x => .ok (.double (-x))
  | _, _ => .error .noSuchOverload

def Value.add : Value → Value → Outcome
  | .int a, .int b => int? (a + b)
  | .uint a, .uint b => uint? (a + b : Nat)
  | .double x, .double y => .ok (.double (x + y))
  | .string a, .string b => .ok (.string (a ++ b))
  | .bytes a, .bytes b => .ok (.bytes (a ++ b))
  | .list a, .list b => .ok (.list (a ++ b))
  | .duration a, .duration b => duration? (a + b)
  | .duration a, .timestamp b => timestamp? (a + b)
  | .timestamp a, .duration b => timestamp? (a + b)
  | _, _ => .error .noSuchOverload

def Value.subtract : Value → Value → Outcome
  | .int a, .int b => int? (a - b)
  | .uint a, .uint b => uint? ((a : Int) - b)
  | .double x, .double y => .ok (.double (x - y))
  | .duration a, .duration b => duration? (a - b)
  | .timestamp a, .duration b => timestamp? (a - b)
  | .timestamp a, .timestamp b => duration? (a - b)
  | _, _ => .error .noSuchOverload

def Value.multiply : Value → Value → Outcome
  | .int a, .int b => int? (a * b)
  | .uint a, .uint b => uint? (a * b : Nat)
  | .double x, .double y => .ok (.double (x * y))
  | _, _ => .error .noSuchOverload

/-- Division of whole numbers goes toward zero. -/
def Value.divide : Value → Value → Outcome
  | .int a, .int b => if b = 0 then .error .divisionByZero else int? (a.tdiv b)
  | .uint a, .uint b => if b = 0 then .error .divisionByZero else .ok (.uint (a / b))
  | .double x, .double y => .ok (.double (x / y))
  | _, _ => .error .noSuchOverload

/-- The remainder of a division toward zero has the sign of the dividend. -/
def Value.remainder : Value → Value → Outcome
  | .int a, .int b =>
    if b = 0 then .error .divisionByZero
    else if a = intMin && b = -1 then .error .overflow
    else .ok (.int (a.tmod b))
  | .uint a, .uint b => if b = 0 then .error .divisionByZero else .ok (.uint (a % b))
  | _, _ => .error .noSuchOverload

/-- The position in a list that a number stands for. -/
def position? : Value → Option Int
  | .int n => some n
  | .uint n => some n
  | .double x => if x.isNaN || x.isInf || x.floor != x then none else some (truncated x)
  | _ => none

def Value.indexed : Value → Value → Outcome
  | .list items, key =>
    match position? key with
    | none => .error .noSuchOverload
    | some n =>
      if n < 0 then .error .indexOutOfRange
      else
        match items[n.toNat]? with
        | some v => .ok v
        | none => .error .indexOutOfRange
  | .map entries, key =>
    match find? entries key with
    | some v => .ok v
    | none => .error .noSuchKey
  | _, _ => .error .noSuchOverload

def Value.isElement : Value → Value → Outcome
  | v, .list items => .ok (.bool (items.any (equal v)))
  | v, .map entries => .ok (.bool (find? entries v).isSome)
  | _, _ => .error .noSuchOverload

def Value.ordering (accept : Ordering → Bool) (a b : Value) : Outcome :=
  (compare? a b).map fun order => .bool (accept order)

/-- An operator on two values; the logical ones are taken care of before. -/
def BinaryOp.apply : BinaryOp → Value → Value → Outcome
  | .add => Value.add
  | .subtract => Value.subtract
  | .multiply => Value.multiply
  | .divide => Value.divide
  | .remainder => Value.remainder
  | .equal => fun a b => .ok (.bool (a.equal b))
  | .unequal => fun a b => .ok (.bool (!a.equal b))
  | .less => Value.ordering (· = .lt)
  | .lessEqual => Value.ordering (· ≠ .gt)
  | .greater => Value.ordering (· = .gt)
  | .greaterEqual => Value.ordering (· ≠ .lt)
  | .isIn => Value.isElement
  | .index => Value.indexed
  | .conjunction => fun a b => settle true (.ok a) (.ok b)
  | .disjunction => fun a b => settle false (.ok a) (.ok b)

def matchesPattern (text pattern : String) : Outcome :=
  match Pattern.parse? pattern.toList with
  | some p => .ok (.bool (p.occursIn text.toList))
  | none => .error .badPattern

/-- The offset of a time zone from universal time in minutes: universal time by name, others by hours
and minutes. -/
def zoneOffset? (zone : String) : Option Int :=
  if zone ∈ ["", "UTC", "Local"] then some 0
  else do
    let (hours, minutes) ← Text.cut ":" zone
    let h ← parseInt? hours
    let m ← parseInt? minutes
    return if Text.startsWith zone "-" then h * 60 - m else h * 60 + m

/-- A part of a date and time, by the name of the function that asks for it. -/
def datePart? (name : String) (t : Instant) : Option Int :=
  let day := Instant.dayNumber t.year t.month t.day
  match name with
  | "getFullYear" => some t.year
  | "getMonth" => some (t.month - 1 : Nat)
  | "getDayOfYear" => some (day - Instant.dayNumber t.year 1 1 : Nat)
  | "getDayOfMonth" => some (t.day - 1 : Nat)
  | "getDate" => some t.day
  | "getDayOfWeek" => some ((day + 1) % 7 : Nat)
  | "getHours" => some t.hour
  | "getMinutes" => some t.minute
  | "getSeconds" => some t.second
  | "getMilliseconds" => some (t.nanosecond / 1000000 : Nat)
  | _ => none

/-- A length of time in whole units; of milliseconds only those beyond the last second. -/
def lengthPart? (name : String) (n : Int) : Option Int :=
  match name with
  | "getHours" => some (n.tdiv Duration.hour)
  | "getMinutes" => some (n.tdiv Duration.minute)
  | "getSeconds" => some (n.tdiv Duration.second)
  | "getMilliseconds" => some (n.tdiv Duration.millisecond)
  | _ => none

def orOverload (found : Option Int) : Outcome :=
  match found with
  | some n => .ok (.int n)
  | none => .error .noSuchOverload

/-- A function called without a target. -/
def callFunction (name : String) (args : List Value) : Outcome :=
  match name, args with
  | "size", [v] => size? v
  | "type", [v] => .ok (.type v.typeName)
  | "dyn", [v] => .ok v
  | "bool", [v] => toBool? v
  | "bytes", [v] => toBytes? v
  | "double", [v] => toDouble? v
  | "duration", [v] => toDuration? v
  | "int", [v] => toInt? v
  | "string", [v] => toString? v
  | "timestamp", [v] => toTimestamp? v
  | "uint", [v] => toUint? v
  | "matches", [.string text, .string pattern] => matchesPattern text pattern
  | _, _ => .error .noSuchOverload

/-- A function called on a target. -/
def callMethod (target : Value) (name : String) (args : List Value) : Outcome :=
  match target, name, args with
  | v, "size", [] => size? v
  | .string s, "contains", [.string t] => .ok (.bool (Text.contains s t))
  | .string s, "endsWith", [.string t] => .ok (.bool (Text.endsWith s t))
  | .string s, "startsWith", [.string t] => .ok (.bool (Text.startsWith s t))
  | .string s, "matches", [.string p] => matchesPattern s p
  | .timestamp n, name, [] => orOverload (datePart? name (Instant.ofNanoseconds n))
  | .timestamp n, name, [.string zone] =>
    match zoneOffset? zone with
    | some offset => orOverload (datePart? name (Instant.ofNanoseconds (n + offset * Duration.minute)))
    | none => .error .badConversion
  | .duration n, name, [] => orOverload (lengthPart? name n)
  | _, _, _ => .error .noSuchOverload

/-- The values that a range runs over: the items of a list, the keys of a map. -/
def elements : Value → Except EvalError (List Value)
  | .list items => .ok items
  | .map entries => .ok (entries.map Prod.fst)
  | _ => .error .noSuchOverload

/-- How many tests hold, if all have a value. -/
def countTrue : List Outcome → Except EvalError Nat
  | [] => .ok 0
  | outcome :: rest => do
    let n ← countTrue rest
    let b ← truth outcome
    return if b then n + 1 else n

/-- The result of testing every element of a range. -/
def Quantifier.result (q : Quantifier) (outcomes : List Outcome) : Outcome :=
  match q with
  | .all => outcomes.foldl (settle true) (.ok (.bool true))
  | .some => outcomes.foldl (settle false) (.ok (.bool false))
  | .one => (countTrue outcomes).map fun n => .bool (n = 1)

/-- The items whose tests hold. -/
def keepTrue : List (Outcome × Outcome) → Except EvalError (List Value)
  | [] => .ok []
  | (test, item) :: rest => do
    let b ← truth test
    if b then
      let v ← item
      return v :: (← keepTrue rest)
    else keepTrue rest

mutual

def eval (env : Env) : Expr → Outcome
  | .literal l => .ok l.value
  | .ident name =>
    match env.value? name with
    | some v => .ok v
    | none => .error .unknownName
  | .select e field =>
    match (e.qualified?.map fun q => q ++ "." ++ field).bind env.value? with
    | some v => .ok v
    | none => do
      match ← eval env e with
      | .map entries =>
        match find? entries (.string field) with
        | some v => .ok v
        | none => .error .noSuchKey
      | _ => .error .noSuchOverload
  | .has e field => do
    match ← eval env e with
    | .map entries => .ok (.bool (find? entries (.string field)).isSome)
    | _ => .error .noSuchOverload
  | .unary op e => do op.apply (← eval env e)
  | .binary .conjunction a b => settle true (eval env a) (eval env b)
  | .binary .disjunction a b => settle false (eval env a) (eval env b)
  | .binary op a b => do
    let x ← eval env a
    let y ← eval env b
    op.apply x y
  | .conditional c a b => do
    match ← truth (eval env c) with
    | true => eval env a
    | false => eval env b
  | .call name args => do callFunction name (← evalAll env args)
  | .method target name args => do
    let v ← eval env target
    callMethod v name (← evalAll env args)
  | .list items => do return .list (← evalAll env items)
  | .map entries => do return .map (← evalEntries env [] entries)
  | .quantified q range name test => do
    let vs ← elements (← eval env range)
    q.result (vs.map fun v => eval ((name, v) :: env) test)
  | .collected range name test item => do
    let vs ← elements (← eval env range)
    return .list (← keepTrue (vs.map fun v =>
      (eval ((name, v) :: env) test, eval ((name, v) :: env) item)))

def evalAll (env : Env) : List Expr → Except EvalError (List Value)
  | [] => .ok []
  | e :: es => do
    let v ← eval env e
    return v :: (← evalAll env es)

/-- The entries of a map after those `before`. -/
def evalEntries (env : Env) (before : List (Value × Value)) :
    List (Expr × Expr) → Except EvalError (List (Value × Value))
  | [] => .ok before
  | (k, v) :: rest => do
    let key ← eval env k
    let value ← eval env v
    if key.isKey then evalEntries env (putEntry before key value) rest else .error .noSuchOverload

end

end ShopLint.Gate
