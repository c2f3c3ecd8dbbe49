/-!
Finding what a reader accepts. A reader looks at the text from one place on and at the character
before it; a search tries every place from left to right, and the leftmost success counts.
-/

namespace ShopLint.Scan

variable {α : Type}

/-- A reader sees the character before its place, if there is one, and the text from there on. -/
abbrev Reader (α : Type) := Option Char → List Char → Option α

/-- The leftmost place where `read` succeeds: the text before it and what was read. -/
def first (read : Reader α) : Option Char → List Char → Option (List Char × α)
  | prev, [] => (read prev []).map fun a => ([], a)
  | prev, c :: cs =>
    match read prev (c :: cs) with
    | some a => some ([], a)
    | none => (first read (some c) cs).map fun p => (c :: p.1, p.2)

/-- What `read` finds at its leftmost place in the whole text. -/
def find? (read : Reader α) (text : List Char) : Option (List Char × α) := first read none text

/-- `read` succeeds somewhere in the text. -/
def occurs (read : Reader α) (text : List Char) : Bool := (find? read text).isSome

/-- Successive finds of a reader that also returns the text after what it read; `skip` characters of
the last find are still to be passed over. A find takes at least one character. -/
def allFrom (read : Reader (α × List Char)) : Nat → Option Char → List Char → List α
  | _, _, [] => []
  | skip + 1, _, c :: cs => allFrom read skip (some c) cs
  | 0, prev, c :: cs =>
    match read prev (c :: cs) with
    | some (a, rest) => a :: allFrom read (cs.length - rest.length) (some c) cs
    | none => allFrom read 0 (some c) cs

/-- All finds from left to right that do not overlap. -/
def all (read : Reader (α × List Char)) (text : List Char) : List α := allFrom read 0 none text

/-- The text without the stretches that `read` accepts. -/
def eraseFrom (read : List Char → Option (List Char)) : Nat → List Char → List Char
  | _, [] => []
  | skip + 1, _ :: cs => eraseFrom read skip cs
  | 0, c :: cs =>
    match read (c :: cs) with
    | some rest => eraseFrom read (cs.length - rest.length) cs
    | none => c :: eraseFrom read 0 cs

def erase (read : List Char → Option (List Char)) (text : List Char) : List Char :=
  eraseFrom read 0 text

/-- The place is the start of a line. -/
def lineStart (prev : Option Char) : Bool := prev = none || prev = some '\n'

end ShopLint.Scan
