import ShopLint.Gate.Token
import ShopLint.Number.Decimal

/-!
Gate expressions and their grammar. Operators bind as usual: members and calls before signs, then
products, sums, comparisons, `&&`, `||` and the conditional.
-/

namespace ShopLint.Gate

inductive Literal
  | null
  | bool (b : Bool)
  | int (n : Int)
  | uint (n : Nat)
  | double (x : Float)
  | string (s : String)
  | bytes (b : List UInt8)

inductive UnaryOp
  | not
  | negate
  deriving DecidableEq, Repr

inductive BinaryOp
  | add
  | subtract
  | multiply
  | divide
  | remainder
  | equal
  | unequal
  | less
  | lessEqual
  | greater
  | greaterEqual
  | isIn
  | index
  | conjunction
  | disjunction
  deriving DecidableEq, Repr

/-- How the elements of a range are tested: all of them, some, or exactly one. -/
inductive Quantifier
  | all
  | some
  | one
  deriving DecidableEq, Repr

inductive Expr
  | literal (l : Literal)
  | ident (name : String)
  | select (e : Expr) (field : String)
  | has (e : Expr) (field : String)
  | unary (op : UnaryOp) (e : Expr)
  | binary (op : BinaryOp) (a b : Expr)
  | conditional (c a b : Expr)
  | call (name : String) (args : List Expr)
  | method (target : Expr) (name : String) (args : List Expr)
  | list (items : List Expr)
  | map (entries : List (Expr × Expr))
  | quantified (q : Quantifier) (range : Expr) (name : String) (test : Expr)
  | collected (range : Expr) (name : String) (test item : Expr)

namespace Expr

/-- The dotted name that an expression spells, if it does. -/
def qualified? : Expr → Option String
  | ident name => some name
  | select e field => e.qualified?.map fun q => q ++ "." ++ field
  | _ => none

/-- Names that have no meaning of their own yet. -/
def reserved : List String := ["as", "break", "const", "continue", "else", "for", "function", "if",
  "import", "let", "loop", "package", "namespace", "return", "var", "void", "while"]

/-- How deep expressions may be nested. -/
def maxDepth : Nat := 250

def relations : List (String × BinaryOp) := [("==", .equal), ("!=", .unequal), ("<", .less),
  ("<=", .lessEqual), (">", .greater), (">=", .greaterEqual), ("in", .isIn)]

def sums : List (String × BinaryOp) := [("+", .add), ("-", .subtract)]

def products : List (String × BinaryOp) := [("*", .multiply), ("/", .divide), ("%", .remainder)]

/-- The levels of left-associative operators, the weakest first. -/
def levels : List (List (String × BinaryOp)) :=
  [[("||", .disjunction)], [("&&", .conjunction)], relations, sums, products]

/-- The literal that a token stands for, with a minus sign before it or not. A number that does not
fit is no literal. -/
def literalOf? (negative : Bool) : Token → Option (Option Literal)
  | .int n =>
    if negative then some (if n ≤ Word.signedLimit then some (.int (-(n : Int))) else none)
    else some (if n < Word.signedLimit then some (.int n) else none)
  | .double d => some ((Binary64.ofDecimal? { d with negative := negative }).map fun b => .double b.toFloat)
  | token =>
    if negative then none
    else
      match token with
      | .uint n => some (if n < Word.unsignedLimit then some (.uint n) else none)
      | .text s => some (some (.string s))
      | .bytes b => some (some (.bytes b))
      | .symbol "true" => some (some (.bool true))
      | .symbol "false" => some (some (.bool false))
      | .symbol "null" => some (some .null)
      | _ => none

/-- What a method call means: some names introduce a variable over the elements of the target. -/
def methodCall (target : Expr) (name : String) (args : List Expr) : Option Expr :=
  let ranging (quantifier : Quantifier) : Option Expr :=
    match args with
    | [ident x, test] => some (quantified quantifier target x test)
    | [_, _] => none
    | _ => some (method target name args)
  match name with
  | "all" => ranging .all
  | "exists" => ranging .some
  | "exists_one" => ranging .one
  | "filter" =>
    match args with
    | [ident x, test] => some (collected target x test (ident x))
    | [_, _] => none
    | _ => some (method target name args)
  | "map" =>
    match args with
    | [ident x, item] => some (collected target x (literal (.bool true)) item)
    | [ident x, test, item] => some (collected target x test item)
    | [_, _] | [_, _, _] => none
    | _ => some (method target name args)
  | _ => some (method target name args)

/-- What a call without target means: `has` asks for the presence of a field. -/
def globalCall (name : String) (args : List Expr) : Option Expr :=
  match name, args with
  | "has", [select e field] => some (has e field)
  | "has", [_] => none
  | _, _ => some (call name args)

mutual

/-- A whole expression. `depth` counts how deep further ones may nest; `fuel` bounds the reading. -/
def expr? (fuel depth : Nat) (tokens : List Token) : Option (Expr × List Token) :=
  match fuel, depth with
  | 0, _ => none
  | _, 0 => none
  | fuel + 1, depth + 1 => do
    let (c, rest) ← level? fuel depth levels tokens
    match rest with
    | .symbol "?" :: rest =>
      let (a, rest) ← level? fuel depth levels rest
      match rest with
      | .symbol ":" :: rest =>
        let (b, rest) ← expr? fuel depth rest
        return (conditional c a b, rest)
      | _ => none
    | _ => return (c, rest)

/-- Operands joined by the operators of the first level, or of a stronger one. -/
def level? (fuel depth : Nat) (ops : List (List (String × BinaryOp))) (tokens : List Token) :
    Option (Expr × List Token) :=
  match fuel with
  | 0 => none
  | fuel + 1 =>
    match ops with
    | [] => signed? fuel depth tokens
    | first :: stronger => do
      let (e, rest) ← level? fuel depth stronger tokens
      operands? fuel depth first stronger e rest

/-- Further operands of one level, joined to what stands before them. -/
def operands? (fuel depth : Nat) (first : List (String × BinaryOp))
    (stronger : List (List (String × BinaryOp))) (before : Expr) (tokens : List Token) :
    Option (Expr × List Token) :=
  match fuel with
  | 0 => none
  | fuel + 1 =>
    match tokens with
    | .symbol s :: rest =>
      match first.lookup s with
      | none => some (before, tokens)
      | some op => do
        let (e, rest) ← level? fuel depth stronger rest
        operands? fuel depth first stronger (binary op before e) rest
    | _ => some (before, tokens)

/-- An operand with the signs before it. One minus before a number belongs to the number; of several
only whether they are even or odd counts. -/
def signed? (fuel depth : Nat) (tokens : List Token) : Option (Expr × List Token) :=
  match fuel with
  | 0 => none
  | fuel + 1 =>
    let nots := tokens.takeWhile (· = .symbol "!")
    let minuses := tokens.takeWhile (· = .symbol "-")
    if !nots.isEmpty then do
      let (e, rest) ← operand? fuel depth (tokens.drop nots.length)
      return (if nots.length % 2 = 0 then e else unary .not e, rest)
    else if 2 ≤ minuses.length then do
      let (e, rest) ← operand? fuel depth (tokens.drop minuses.length)
      return (if minuses.length % 2 = 0 then e else unary .negate e, rest)
    else
      match tokens with
      | .symbol "-" :: token :: rest =>
        if (literalOf? true token).isSome then operand? fuel depth tokens
        else do
          let (e, rest) ← operand? fuel depth (token :: rest)
          return (unary .negate e, rest)
      | _ => operand? fuel depth tokens

/-- A primary expression with its members, calls and indices. -/
def operand? (fuel depth : Nat) (tokens : List Token) : Option (Expr × List Token) :=
  match fuel with
  | 0 => none
  | fuel + 1 => do
    let (e, rest) ← primary? fuel depth tokens
    members? fuel depth e rest

def members? (fuel depth : Nat) (e : Expr) (tokens : List Token) : Option (Expr × List Token) :=
  match fuel with
  | 0 => none
  | fuel + 1 =>
    match tokens with
    | .symbol "." :: .name field :: .symbol "(" :: rest => do
      let (args, rest) ← items? fuel depth ")" false rest
      let e ← methodCall e field args
      members? fuel depth e rest
    | .symbol "." :: .name field :: rest => members? fuel depth (select e field) rest
    | .symbol "." :: _ => none
    | .symbol "[" :: rest => do
      let (i, rest) ← expr? fuel depth rest
      match rest with
      | .symbol "]" :: rest => members? fuel depth (binary .index e i) rest
      | _ => none
    | _ => some (e, tokens)

def primary? (fuel depth : Nat) (tokens : List Token) : Option (Expr × List Token) :=
  match fuel with
  | 0 => none
  | fuel + 1 =>
    match tokens with
    | .symbol "(" :: rest => do
      let (e, rest) ← expr? fuel depth rest
      match rest with
      | .symbol ")" :: rest => return (e, rest)
      | _ => none
    | .symbol "[" :: rest => do
      let (items, rest) ← items? fuel depth "]" true rest
      return (list items, rest)
    | .symbol "\x7b" :: rest => do
      let (entries, rest) ← entries? fuel depth rest
      return (map entries, rest)
    | .symbol "." :: .name f :: .symbol "(" :: rest => do
      if f ∈ reserved then none
      else
        let (args, rest) ← items? fuel depth ")" false rest
        return (call f args, rest)
    | .symbol "." :: .name x :: rest => if x ∈ reserved then none else some (ident x, rest)
    | .name f :: .symbol "(" :: rest => do
      if f ∈ reserved then none
      else
        let (args, rest) ← items? fuel depth ")" false rest
        return (← globalCall f args, rest)
    | .name x :: rest => if x ∈ reserved then none else some (ident x, rest)
    | .symbol "-" :: token :: rest => do
      let l ← (← literalOf? true token)
      return (literal l, rest)
    | token :: rest => do
      let l ← (← literalOf? false token)
      return (literal l, rest)
    | [] => none

/-- Expressions between commas up to the closing bracket, before which a comma may stand if `trailing`
holds. -/
def items? (fuel depth : Nat) (close : String) (trailing : Bool) (tokens : List Token) :
    Option (List Expr × List Token) :=
  match fuel with
  | 0 => none
  | fuel + 1 =>
    match tokens with
    | .symbol "," :: .symbol s :: rest => if trailing && s = close then some ([], rest) else none
    | _ =>
      if tokens.head? = some (.symbol close) then some ([], tokens.drop 1)
      else do
        let (e, rest) ← expr? fuel depth tokens
        let (es, rest) ← moreItems? fuel depth close trailing rest
        return (e :: es, rest)

def moreItems? (fuel depth : Nat) (close : String) (trailing : Bool) (tokens : List Token) :
    Option (List Expr × List Token) :=
  match fuel with
  | 0 => none
  | fuel + 1 =>
    match tokens with
    | .symbol "," :: rest =>
      if trailing && rest.head? = some (.symbol close) then some ([], rest.drop 1)
      else do
        let (e, rest) ← expr? fuel depth rest
        let (es, rest) ← moreItems? fuel depth close trailing rest
        return (e :: es, rest)
    | _ => if tokens.head? = some (.symbol close) then some ([], tokens.drop 1) else none

/-- Keys and values up to the closing brace. -/
def entries? (fuel depth : Nat) (tokens : List Token) : Option (List (Expr × Expr) × List Token) :=
  match fuel with
  | 0 => none
  | fuel + 1 =>
    match tokens with
    | .symbol "\x7d" :: rest => some ([], rest)
    | .symbol "," :: .symbol "\x7d" :: rest => some ([], rest)
    | _ => moreEntries? fuel depth tokens

def moreEntries? (fuel depth : Nat) (tokens : List Token) : Option (List (Expr × Expr) × List Token) :=
  match fuel with
  | 0 => none
  | fuel + 1 => do
    let (key, rest) ← expr? fuel depth tokens
    match rest with
    | .symbol ":" :: rest =>
      let (value, rest) ← expr? fuel depth rest
      match rest with
      | .symbol "\x7d" :: rest => return ([(key, value)], rest)
      | .symbol "," :: .symbol "\x7d" :: rest => return ([(key, value)], rest)
      | .symbol "," :: rest =>
        let (entries, rest) ← moreEntries? fuel depth rest
        return ((key, value) :: entries, rest)
      | _ => none
    | _ => none

end

/-- The expression that a text spells. -/
def parse? (text : List Char) : Option Expr := do
  let tokens ← Token.all? text
  match expr? (16 * (tokens.length + 1)) maxDepth tokens with
  | some (e, []) => some e
  | _ => none

end Expr

end ShopLint.Gate
