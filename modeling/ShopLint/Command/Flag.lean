import ShopLint.Text.Basic
import ShopLint.Text.Quoted

/-!
Flags on a command line. A flag is given by its name after two dashes or by its letter after one;
letters of switches can be run together. The value of a flag follows it as an argument of its own,
after an equals sign, or directly after its letter. Everything else is an operand, and so is all that
follows two dashes alone.
-/

namespace ShopLint

/-- Whether a flag takes a text or is a switch, which needs no value. -/
inductive FlagKind
  | text
  | switch
  deriving DecidableEq, Repr

structure Flag where
  name : String
  letter : Option Char := none
  kind : FlagKind := .text
  usage : String
  deriving DecidableEq, Repr

inductive FlagError
  | malformed (arg : String)
  | unknown (name : String)
  | unknownLetter (letter : Char) (letters : String)
  | valueMissing (arg : String)
  | letterValueMissing (letter : Char) (letters : String)
  | notSwitchValue (flag : Flag) (value : String)
  deriving DecidableEq, Repr

/-- A character in single quotes, in which a double quote is not escaped. -/
def quoteLetter (c : Char) : String :=
  let inner := if c = '\'' then ['\\', '\''] else if c = '"' then ['"'] else Text.quoteChar c
  String.ofList (['\''] ++ inner ++ ['\''])

/-- The flag as it is spelled in full. -/
def Flag.spelled (f : Flag) : String :=
  match f.letter with
  | some c => s!"-{c}, --{f.name}"
  | none => s!"--{f.name}"

def FlagError.message : FlagError → String
  | malformed arg => s!"bad flag syntax: {arg}"
  | unknown name => s!"unknown flag: --{name}"
  | unknownLetter c letters => s!"unknown shorthand flag: {quoteLetter c} in -{letters}"
  | valueMissing arg => s!"flag needs an argument: {arg}"
  | letterValueMissing c letters => s!"flag needs an argument: {quoteLetter c} in -{letters}"
  | notSwitchValue flag value =>
    s!"invalid argument {Text.quote value} for {Text.quote flag.spelled} flag: " ++
      s!"strconv.ParseBool: parsing {Text.quote value}: invalid syntax"

/-- The flags given, with their values in the order in which they were given, and the operands. -/
structure ParsedArgs where
  values : List (String × String) := []
  operands : List String := []
  deriving DecidableEq, Repr

namespace ParsedArgs

/-- The last value given for a flag, empty when it is not given. -/
def text (p : ParsedArgs) (name : String) : String := (p.values.reverse.lookup name).getD ""

def isOn (p : ParsedArgs) (name : String) : Bool := (Text.parseBool? (p.text name)).getD false

def hasFlags (p : ParsedArgs) : Bool := !p.values.isEmpty

def withOperand (p : ParsedArgs) (operand : String) : ParsedArgs :=
  { p with operands := operand :: p.operands }

end ParsedArgs

namespace Flag

/-- The value of a flag, if it can have it. -/
def check (f : Flag) (value : String) : Except FlagError (String × String) :=
  if f.kind = .switch && (Text.parseBool? value).isNone then .error (.notSwitchValue f value)
  else .ok (f.name, value)

/-- How an argument asks for flags: with the values found, and whether the next argument is one of
them. -/
structure Taken where
  values : List (String × String)
  takesNext : Bool := false

/-- An argument that starts with two dashes. -/
def takeLong (flags : List Flag) (arg : String) (next : Option String) : Except FlagError Taken := do
  let body := Text.dropStart "--" arg
  if body = "" || Text.startsWith body "-" || Text.startsWith body "=" then .error (.malformed arg)
  else
    let (name, given) :=
      match Text.cut "=" body with
      | some (name, value) => (name, some value)
      | none => (body, none)
    match flags.find? (·.name = name), given, next with
    | none, _, _ => .error (.unknown name)
    | some f, some value, _ => return ⟨[← f.check value], false⟩
    | some f, none, next =>
      match f.kind, next with
      | .switch, _ => return ⟨[← f.check "true"], false⟩
      | .text, some value => return ⟨[← f.check value], true⟩
      | .text, none => .error (.valueMissing arg)

/-- A letter as messages show it: beyond ASCII by the first byte of its encoding. -/
def leadLetter (c : Char) : Char :=
  if c.toNat < 0x80 then c
  else if c.toNat < 0x800 then Char.ofNat (0xC0 + c.toNat / 0x40)
  else if c.toNat < 0x10000 then Char.ofNat (0xE0 + c.toNat / 0x1000)
  else Char.ofNat (0xF0 + c.toNat / 0x40000)

/-- The letters after one dash. -/
def takeLetters (flags : List Flag) (next : Option String) : List Char → Except FlagError Taken
  | [] => .ok ⟨[], false⟩
  | c :: rest =>
    if "test.".toList.isPrefixOf (c :: rest) then .ok ⟨[], false⟩
    else
      match flags.find? (·.letter = some c) with
      | none => .error (.unknownLetter (leadLetter c) (String.ofList (c :: rest)))
      | some f => do
        match f.kind, rest, next with
        | _, '=' :: d :: value, _ => return ⟨[← f.check (String.ofList (d :: value))], false⟩
        | .switch, rest, next =>
          let value ← f.check "true"
          let more ← takeLetters flags next rest
          return { more with values := value :: more.values }
        | .text, d :: value, _ => return ⟨[← f.check (String.ofList (d :: value))], false⟩
        | .text, [], some value => return ⟨[← f.check value], true⟩
        | .text, [], none => .error (.letterValueMissing c (String.ofList [c]))

/-- The flags that an argument gives, or nothing if it is an operand. -/
def take? (flags : List Flag) (arg : String) (next : Option String) : Except FlagError (Option Taken) :=
  match arg.toList with
  | '-' :: '-' :: _ => (takeLong flags arg next).map some
  | '-' :: c :: letters => (takeLetters flags next (c :: letters)).map some
  | _ => .ok none

/-- Reads the arguments of a command with these flags. -/
def parse (flags : List Flag) : List String → Except FlagError ParsedArgs
  | [] => .ok {}
  | "--" :: args => .ok { operands := args }
  | [arg] => do
    match ← take? flags arg none with
    | none => return { operands := [arg] }
    | some taken => return { values := taken.values }
  | arg :: next :: args => do
    match ← take? flags arg (some next) with
    | none => return (← parse flags (next :: args)).withOperand arg
    | some taken =>
      let rest ← if taken.takesNext then parse flags args else parse flags (next :: args)
      return { rest with values := taken.values ++ rest.values }

/-- A flag in a list of flags, and how its usage is set apart. -/
def column (f : Flag) : String :=
  let lead := match f.letter with
    | some c => s!"  -{c}, --{f.name}"
    | none => s!"      --{f.name}"
  match f.kind with
  | .text => lead ++ " string"
  | .switch => lead

/-- One line for each flag, the usages below one another. -/
def usages (flags : List Flag) : String :=
  let width := (flags.map fun f => f.column.length).foldl max 0
  Text.join "\n" (flags.map fun f =>
    f.column ++ String.ofList (List.replicate (width - f.column.length + 3) ' ') ++ f.usage)

end Flag

end ShopLint
