import ShopLint.Json.Value
import ShopLint.Severity

/-!
What rules find: occurrences at lines of files, gathered into one finding per rule.
-/

namespace ShopLint

/-- One place where a rule is violated. `metadata` holds further data by key, in normal form. -/
structure Occurrence where
  file : String := ""
  startLine : Int := 0
  endLine : Int := 0
  message : String := ""
  severity : Severity := .unset
  metadata : List (String × Json.Value) := []
  deriving Inhabited

/-- The occurrence with its last line not before its first. -/
def Occurrence.normalize (o : Occurrence) : Occurrence :=
  if o.endLine < o.startLine then { o with endLine := o.startLine } else o

/-- The counts of the occurrences' severities, `fallback` standing in for those not given. -/
def countBySeverity (occurrences : List Occurrence) (fallback : Severity) : SeverityCounts :=
  .ofSeverities (occurrences.map fun o => o.severity.orElse fallback)

/-- A rule's description and its occurrences. A finding read from text may come without a list. -/
structure Finding where
  ruleId : String := ""
  name : String := ""
  shortDescription : String := ""
  longDescription : String := ""
  listed : Option (List Occurrence) := none
  deriving Inhabited

def Finding.occurrences (f : Finding) : List Occurrence := f.listed.getD []

end ShopLint
