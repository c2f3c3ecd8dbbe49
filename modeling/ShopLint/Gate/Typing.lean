import ShopLint.Gate.Expr
import ShopLint.Gate.Ty

/-!
Checking gate expressions before they run: the operators and functions there are, and the type of an
expression. Numbers of different types do not mix unless a type is left open with `dyn`.
-/

namespace ShopLint.Gate

open Ty

/-- The types that can be written as names. -/
def typeNames : List (String × Ty) := [("bool", bool), ("bytes", bytes), ("double", double),
  ("google.protobuf.Duration", duration), ("google.protobuf.Timestamp", timestamp), ("int", int),
  ("list", list dyn), ("map", map dyn dyn), ("null_type", null), ("string", string), ("type", type dyn),
  ("uint", uint)]

/-- The types whose values are in order. -/
def ordered : List Ty := [bool, int, uint, double, string, bytes, timestamp, duration]

def UnaryOp.signatures : UnaryOp → List Signature
  | .not => [⟨[bool], bool, 0⟩]
  | .negate => [⟨[double], double, 0⟩, ⟨[int], int, 0⟩]

def BinaryOp.signatures : BinaryOp → List Signature
  | .add => [⟨[bytes, bytes], bytes, 0⟩, ⟨[double, double], double, 0⟩,
      ⟨[duration, duration], duration, 0⟩, ⟨[duration, timestamp], timestamp, 0⟩,
      ⟨[timestamp, duration], timestamp, 0⟩, ⟨[int, int], int, 0⟩,
      ⟨[list (var 0), list (var 0)], list (var 0), 1⟩, ⟨[string, string], string, 0⟩,
      ⟨[uint, uint], uint, 0⟩]
  | .subtract => [⟨[double, double], double, 0⟩, ⟨[duration, duration], duration, 0⟩,
      ⟨[int, int], int, 0⟩, ⟨[timestamp, duration], timestamp, 0⟩,
      ⟨[timestamp, timestamp], duration, 0⟩, ⟨[uint, uint], uint, 0⟩]
  | .multiply | .divide => [double, int, uint].map fun t => ⟨[t, t], t, 0⟩
  | .remainder => [int, uint].map fun t => ⟨[t, t], t, 0⟩
  | .equal | .unequal => [⟨[var 0, var 0], bool, 1⟩]
  | .less | .lessEqual | .greater | .greaterEqual => ordered.map fun t => ⟨[t, t], bool, 0⟩
  | .isIn => [⟨[var 0, list (var 0)], bool, 1⟩, ⟨[var 0, map (var 0) (var 1)], bool, 2⟩]
  | .index => [⟨[list (var 0), int], var 0, 1⟩, ⟨[map (var 0) (var 1), var 0], var 1, 2⟩]
  | .conjunction | .disjunction => [⟨[bool, bool], bool, 0⟩]

def conditionalSignature : Signature := ⟨[bool, var 0, var 0], var 0, 1⟩

def conversions (result : Ty) (sources : List Ty) : List Signature :=
  sources.map fun t => ⟨[t], result, 0⟩

/-- The types whose values have a size. -/
def sized : List Signature := [⟨[bytes], int, 0⟩, ⟨[list (var 0)], int, 1⟩,
  ⟨[map (var 0) (var 1)], int, 2⟩, ⟨[string], int, 0⟩]

/-- The functions that are called without a target. -/
def functions : List (String × List Signature) := [
  ("size", sized),
  ("type", [⟨[var 0], type (var 0), 1⟩]),
  ("dyn", [⟨[var 0], dyn, 1⟩]),
  ("bool", conversions bool [bool, string]),
  ("bytes", conversions bytes [bytes, string]),
  ("double", conversions double [double, int, string, uint]),
  ("duration", conversions duration [duration, int, string]),
  ("int", conversions int [int, double, duration, string, timestamp, uint]),
  ("string", conversions string [string, bool, bytes, double, duration, int, timestamp, uint]),
  ("timestamp", conversions timestamp [timestamp, int, string]),
  ("uint", conversions uint [uint, double, int, string]),
  ("matches", [⟨[string, string], bool, 0⟩])]

/-- A part of a date, with or without the name of a time zone. -/
def datePart : List Signature := [⟨[timestamp], int, 0⟩, ⟨[timestamp, string], int, 0⟩]

/-- A part of the time of day, or of a length of time. -/
def timePart : List Signature := datePart ++ [⟨[duration], int, 0⟩]

/-- The functions that are called on a target, which is the first parameter. -/
def methods : List (String × List Signature) := [
  ("size", sized),
  ("contains", [⟨[string, string], bool, 0⟩]),
  ("endsWith", [⟨[string, string], bool, 0⟩]),
  ("startsWith", [⟨[string, string], bool, 0⟩]),
  ("matches", [⟨[string, string], bool, 0⟩]),
  ("getFullYear", datePart), ("getMonth", datePart), ("getDayOfYear", datePart),
  ("getDayOfMonth", datePart), ("getDate", datePart), ("getDayOfWeek", datePart),
  ("getHours", timePart), ("getMinutes", timePart), ("getSeconds", timePart),
  ("getMilliseconds", timePart)]

/-- What is known while an expression is checked, and the next variable that is not in use. -/
structure Inference where
  bindings : Bindings := []
  next : Nat := 0

abbrev Infer := StateT Inference Option

namespace Infer

def fresh : Infer Ty := fun s => some (.var s.next, { s with next := s.next + 1 })

/-- A value of type `a` may stand where `b` is expected. -/
def expect (a b : Ty) : Infer Unit := fun s =>
  (s.bindings.assign? a b).map fun m => ((), { s with bindings := m })

def resolved (t : Ty) : Infer Ty := fun s => some (s.bindings.resolve t, s)

/-- Tries the signatures in order. All that fit are taken into account: where their results differ,
the result is left open. -/
def among (args : List Ty) (found : Option Ty) : List Signature → Infer Ty
  | [] => fun s => found.map fun t => (t, s)
  | sig :: rest => fun s =>
    let params := sig.params.map (Ty.shift s.next)
    let s' := { s with next := s.next + sig.vars }
    match s'.bindings.assignAll? args params with
    | none => among args found rest s'
    | some m =>
      let result := m.resolve (sig.result.shift s.next)
      let found :=
        match found with
        | none => result
        | some t => if t = .dyn || t = result then t else .dyn
      among args (some found) rest { s' with bindings := m }

def apply (signatures : List Signature) (args : List Ty) : Infer Ty := among args none signatures

/-- The type of the elements that a range runs over. -/
def elementOf (range : Ty) : Infer Ty := do
  match ← resolved range with
  | .list t => return t
  | .map k _ => return k
  | .dyn => return .dyn
  | .var n =>
    expect .dyn (.var n)
    return .dyn
  | _ => failure

/-- The type of a field of a value. -/
def fieldOf (t : Ty) : Infer Ty := do
  match ← resolved t with
  | .map _ v => return v
  | .dyn => return .dyn
  | .var n =>
    expect .dyn (.var n)
    return .dyn
  | _ => failure

/-- The common type of the elements of a literal, open where they differ. -/
def join (before : Option Ty) (t : Ty) : Infer Ty := fun s =>
  match before with
  | none => some (t, s)
  | some p =>
    match s.bindings.assign? p t with
    | some m => some (p.moreGeneral t, { s with bindings := m })
    | none => some (.dyn, s)

end Infer

def Literal.ty : Literal → Ty
  | .null => .null
  | .bool _ => .bool
  | .int _ => .int
  | .uint _ => .uint
  | .double _ => .double
  | .string _ => .string
  | .bytes _ => .bytes

/-- The names in use and their types. -/
abbrev Scope := List (String × Ty)

def Scope.type? (scope : Scope) (name : String) : Option Ty :=
  match scope.lookup name with
  | some t => some t
  | none => (typeNames.lookup name).map .type

mutual

/-- The type of an expression; fails when it has none. -/
def infer (scope : Scope) : Expr → Infer Ty
  | .literal l => return l.ty
  | .ident name =>
    match scope.type? name with
    | some t => return t
    | none => failure
  | .select e field =>
    match (e.qualified?.map fun q => q ++ "." ++ field).bind scope.type? with
    | some t => return t
    | none => do Infer.resolved (← Infer.fieldOf (← infer scope e))
  | .has e _ => do
    let _ ← Infer.fieldOf (← infer scope e)
    return .bool
  | .unary op e => do Infer.apply op.signatures [← infer scope e]
  | .binary op a b => do
    let a ← infer scope a
    let b ← infer scope b
    Infer.apply op.signatures [a, b]
  | .conditional c a b => do
    let c ← infer scope c
    let a ← infer scope a
    let b ← infer scope b
    Infer.apply [conditionalSignature] [c, a, b]
  | .call name args => do
    let types ← inferAll scope args
    match functions.lookup name with
    | some signatures => Infer.apply signatures types
    | none => failure
  | .method target name args => do
    let types ← inferAll scope args
    let t ← infer scope target
    match methods.lookup name with
    | some signatures => Infer.apply signatures (t :: types)
    | none => failure
  | .list items => do
    match ← inferItems scope none items with
    | some t => return .list t
    | none => return .list (← Infer.fresh)
  | .map entries => do
    match ← inferEntries scope none entries with
    | some (k, v) => return .map k v
    | none => return .map (← Infer.fresh) (← Infer.fresh)
  | .quantified _ range name test => do
    let t ← Infer.elementOf (← infer scope range)
    Infer.expect (← infer ((name, t) :: scope) test) .bool
    return .bool
  | .collected range name test item => do
    let t ← Infer.elementOf (← infer scope range)
    Infer.expect (← infer ((name, t) :: scope) test) .bool
    return .list (← infer ((name, t) :: scope) item)

def inferAll (scope : Scope) : List Expr → Infer (List Ty)
  | [] => return []
  | e :: es => do
    let t ← infer scope e
    return t :: (← inferAll scope es)

/-- The common type of some expressions, joined to what stands before them. -/
def inferItems (scope : Scope) (before : Option Ty) : List Expr → Infer (Option Ty)
  | [] => return before
  | e :: es => do
    let t ← infer scope e
    inferItems scope (some (← Infer.join before t)) es

def inferEntries (scope : Scope) (before : Option (Ty × Ty)) : List (Expr × Expr) → Infer (Option (Ty × Ty))
  | [] => return before
  | (k, v) :: rest => do
    let key ← infer scope k
    let value ← infer scope v
    let key ← Infer.join (before.map Prod.fst) key
    let value ← Infer.join (before.map Prod.snd) value
    inferEntries scope (some (key, value)) rest

end

/-- The expression has a type when the given names have theirs. -/
def isTyped (scope : Scope) (e : Expr) : Bool := (infer scope e {}).isSome

end ShopLint.Gate
