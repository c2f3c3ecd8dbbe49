import ShopLint.Dict
import ShopLint.Finding
import ShopLint.Instant

/-!
Reports: the findings of a scan by rule, and what is known of the scan itself.
-/

namespace ShopLint

/-- What a report says about its scan. Empty texts are not known. -/
structure ScanInfo where
  scanId : String := ""
  path : String := ""
  generatedAt : Instant := .zero
  toolVersion : String := ""
  branch : String := ""
  commit : String := ""
  deriving DecidableEq, Inhabited

structure Report where
  findings : Dict Finding := {}
  info : ScanInfo := {}
  deriving Inhabited

namespace Report

/-- The key of the report's text form that holds the scan's data; no rule can have it. -/
def infoKey : String := "metadata"

def start (path : String) (generatedAt : Instant) : Report :=
  { info := { path := path, generatedAt := generatedAt } }

/-- The list with further occurrences; no list stays none if nothing is added. -/
def extend (listed : Option (List Occurrence)) (more : List Occurrence) : Option (List Occurrence) :=
  match listed, more with
  | none, [] => none
  | none, more => some more
  | some occurrences, more => some (occurrences ++ more)

/-- The report with a finding merged in. The first finding of a rule describes it; occurrences are
appended. A finding without a rule, or for the reserved key, is dropped. -/
def add (report : Report) (f : Finding) : Report :=
  if f.ruleId = "" || f.ruleId = infoKey then report
  else
    let more := f.occurrences.map Occurrence.normalize
    { report with
      findings := report.findings.alter f.ruleId fun
        | none => { f with listed := some more }
        | some first => { first with listed := extend first.listed more } }

def ids (report : Report) : List String := report.findings.keys

/-- The findings in the order of their keys. -/
def rules (report : Report) : List Finding := report.findings.values

/-- The counts over all findings. -/
def counts (report : Report) (fallback : Severity) : SeverityCounts :=
  (report.rules.map fun f => countBySeverity f.occurrences fallback).foldl (· + ·) {}

/-- The findings with at least one occurrence. -/
def occurring (report : Report) : List Finding := report.rules.filter fun f => !f.occurrences.isEmpty

end Report

end ShopLint
