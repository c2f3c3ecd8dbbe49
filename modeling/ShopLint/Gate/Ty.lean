/-!
The types of gate expressions, and when a value of one type may stand where another is expected.
Type variables are solved on the way; what is known of them only grows more general.
-/

namespace ShopLint.Gate

/-- `type t` is the type of a type; `dyn` is checked when the expression runs; `var` is not known
yet. -/
inductive Ty
  | null
  | bool
  | int
  | uint
  | double
  | string
  | bytes
  | timestamp
  | duration
  | dyn
  | list (item : Ty)
  | map (key value : Ty)
  | type (t : Ty)
  | var (n : Nat)
  deriving DecidableEq, Repr

namespace Ty

def size : Ty → Nat
  | list t | type t => t.size + 1
  | map k v => k.size + v.size + 1
  | _ => 1

/-- The type with its variables numbered from `base` on. -/
def shift (base : Nat) : Ty → Ty
  | list t => list (t.shift base)
  | map k v => map (k.shift base) (v.shift base)
  | type t => type (t.shift base)
  | var n => var (n + base)
  | t => t

/-- Values of the type may be missing. -/
def isNullable : Ty → Bool
  | null | timestamp | duration => true
  | _ => false

/-- `a` says no more than `b`, of two types that agree. -/
def isAsGeneral : Ty → Ty → Bool
  | dyn, _ => true
  | var _, _ => true
  | _, dyn => false
  | _, var _ => false
  | list a, list b => isAsGeneral a b
  | map k v, map k' v' => isAsGeneral k k' && isAsGeneral v v'
  | type _, type _ => true
  | a, b => decide (a = b)

def moreGeneral (a b : Ty) : Ty := if isAsGeneral a b then a else b

end Ty

/-- What is known of type variables, the latest first. -/
abbrev Bindings := List (Nat × Ty)

namespace Bindings

/-- Bounds every chain of look-ups, since no variable stands in its own binding. -/
def weight (m : Bindings) : Nat := (m.map fun e => e.2.size).foldr (· + ·) 0

/-- The type with everything known put in; `fuel` bounds the look-ups. -/
def resolveWith (m : Bindings) : Nat → Ty → Ty
  | 0, t => t
  | fuel + 1, t =>
    match t with
    | .var n =>
      match m.lookup n with
      | some t => m.resolveWith fuel t
      | none => .var n
    | .list t => .list (m.resolveWith fuel t)
    | .map k v => .map (m.resolveWith fuel k) (m.resolveWith fuel v)
    | .type t => .type (m.resolveWith fuel t)
    | t => t

def fuelFor (m : Bindings) (t : Ty) : Nat := m.length + m.weight + t.size

def resolve (m : Bindings) (t : Ty) : Ty := m.resolveWith (m.fuelFor t) t

/-- The variable occurs in the type, as far as that is known. -/
def occurs (m : Bindings) (n : Nat) (t : Ty) : Bool := go n (m.resolve t)
where
  go (n : Nat) : Ty → Bool
    | .var k => k = n
    | .list t | .type t => go n t
    | .map k v => go n k || go n v
    | _ => false

def bind (m : Bindings) (n : Nat) (t : Ty) : Bindings := (n, t) :: m.filter (·.1 ≠ n)

mutual

/-- What is known once a value of type `a` stands where `b` is expected; `none` when it may not. -/
def assignWith (m : Bindings) : Nat → Ty → Ty → Option Bindings
  | 0, _, _ => none
  | fuel + 1, a, b =>
    let forward : Option Bindings × Bool :=
      match b with
      | .var n => m.bindWith fuel a n
      | _ => (none, false)
    match forward with
    | (some m, _) => some m
    | (none, true) => none
    | (none, false) =>
      match a, b with
      | .var n, b => (m.bindWith fuel b n).1
      | .dyn, _ => some m
      | _, .dyn => some m
      | .null, b => if b.isNullable then some m else none
      | a, .null => if a.isNullable then some m else none
      | .type _, .type _ => some m
      | .list a, .list b => m.assignWith fuel a b
      | .map k v, .map k' v' => do
        let m ← m.assignWith fuel k k'
        m.assignWith fuel v v'
      | a, b => if a = b then some m else none

/-- What is known once the variable `n` stands for `t`, and whether it had a binding before. -/
def bindWith (m : Bindings) : Nat → Ty → Nat → Option Bindings × Bool
  | 0, _, _ => (none, true)
  | fuel + 1, t, n =>
    if t = .var n then (some m, true)
    else
      match m.lookup n with
      | some known =>
        if t = known then (some m, true)
        else
          match m.assignWith fuel t known with
          | some m =>
            let general := t.moreGeneral known
            (some (if m.occurs n general then m else m.bind n general), true)
          | none => (none, true)
      | none => if m.occurs n t then (none, false) else (some (m.bind n t), false)

end

def assign? (m : Bindings) (a b : Ty) : Option Bindings :=
  m.assignWith (4 * (m.fuelFor a + b.size) + 4) a b

/-- The same for lists of types of one length. -/
def assignAll? (m : Bindings) : List Ty → List Ty → Option Bindings
  | [], [] => some m
  | a :: as, b :: bs => do
    let m ← m.assign? a b
    m.assignAll? as bs
  | _, _ => none

end Bindings

/-- One way to use an operator or function. The variables are those below `vars`. -/
structure Signature where
  params : List Ty
  result : Ty
  vars : Nat := 0
  deriving DecidableEq, Repr

end ShopLint.Gate
