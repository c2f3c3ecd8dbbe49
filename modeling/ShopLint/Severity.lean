/-!
Severities of occurrences. Three names are ranked; an empty name means that none was given, and each
consumer decides what takes its place.
-/

namespace ShopLint

structure Severity where
  name : String
  deriving DecidableEq, Repr, Inhabited

namespace Severity

def error : Severity := ⟨"error"⟩

def warning : Severity := ⟨"warning"⟩

def note : Severity := ⟨"note"⟩

def unset : Severity := ⟨""⟩

/-- Error over warning over note over everything else. -/
def rank (s : Severity) : Nat :=
  if s = error then 3 else if s = warning then 2 else if s = note then 1 else 0

/-- `s`, or `fallback` when none was given. -/
def orElse (s fallback : Severity) : Severity := if s = unset then fallback else s

/-- The most severe of the list, unset when none is ranked; the first of those that tie. -/
def highest (severities : List Severity) : Severity :=
  severities.foldl (fun top s => if top.rank < s.rank then s else top) unset

end Severity

/-- How many occurrences there are of each ranked severity. -/
structure SeverityCounts where
  errors : Nat := 0
  warnings : Nat := 0
  notes : Nat := 0
  deriving DecidableEq, Repr, Inhabited

namespace SeverityCounts

def total (c : SeverityCounts) : Nat := c.errors + c.warnings + c.notes

/-- The most severe name with at least one occurrence. -/
def highest (c : SeverityCounts) : Severity :=
  if 0 < c.errors then .error
  else if 0 < c.warnings then .warning
  else if 0 < c.notes then .note
  else .unset

def add (a b : SeverityCounts) : SeverityCounts :=
  ⟨a.errors + b.errors, a.warnings + b.warnings, a.notes + b.notes⟩

instance : Add SeverityCounts := ⟨add⟩

/-- The counts with one more occurrence of `s`; a severity without a rank is not counted. -/
def count (c : SeverityCounts) (s : Severity) : SeverityCounts :=
  if s = .error then { c with errors := c.errors + 1 }
  else if s = .warning then { c with warnings := c.warnings + 1 }
  else if s = .note then { c with notes := c.notes + 1 }
  else c

def ofSeverities (severities : List Severity) : SeverityCounts := severities.foldl count {}

end SeverityCounts

end ShopLint
