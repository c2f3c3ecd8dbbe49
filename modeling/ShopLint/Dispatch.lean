import ShopLint.Report.Basic
import ShopLint.Rule.Basic

/-!
Running processors one after the other and merging what they report.
-/

namespace ShopLint

/-- What one run of a processor leaves: the class index, how many occurrences it counts, and its
findings. -/
structure Processed where
  index : ClassIndex
  found : Int
  findings : List Finding

/-- Whatever looks at the collected files and reports findings. `target` is the file type without which
it is not run. -/
structure Processor where
  id : String
  target : String
  process : Host → Classification → ClassIndex → Except RuleFailure Processed

/-- What a rule found, under its own description. -/
def Rule.finding (r : Rule) (occurrences : List Occurrence) : Finding :=
  { ruleId := r.id, name := r.name, shortDescription := r.shortDescription,
    longDescription := r.longDescription, listed := some (occurrences.map Occurrence.normalize) }

/-- A rule counts its occurrences and reports them as one finding. -/
def Rule.processed (r : Rule) (index : ClassIndex) (occurrences : List Occurrence) : Processed :=
  { index := index, found := occurrences.length, findings := [r.finding occurrences] }

def Rule.processor (r : Rule) : Processor where
  id := r.id
  target := r.target
  process host files index :=
    (r.run host files index).map fun (index, occurrences) => r.processed index occurrences

/-- Which processors to run: all, or only those whose rules a fixer can fix. -/
structure DispatchOptions where
  fixableOnly : Bool := false
  fixable : List String := []

structure DispatchStats where
  ran : List String := []
  skipped : List String := []
  found : Int := 0
  deriving DecidableEq, Repr

/-- The processor that stopped a dispatch. -/
structure DispatchFailure where
  id : String
  cause : RuleFailure
  deriving DecidableEq, Repr

def DispatchFailure.message (f : DispatchFailure) : String := s!"processor {f.id} failed: {f.cause.message}"

/-- The processor is not run. -/
def Processor.isSkipped (p : Processor) (files : Classification) (options : DispatchOptions) : Bool :=
  (options.fixableOnly && p.id ∉ options.fixable) || !files.has p.target

/-- How far a dispatch has come. -/
structure DispatchState where
  report : Report
  index : ClassIndex := {}
  stats : DispatchStats := {}

/-- The state after a processor that is not run. -/
def DispatchState.skip (s : DispatchState) (id : String) : DispatchState :=
  { s with stats := { s.stats with skipped := s.stats.skipped ++ [id] } }

/-- The state after a processor that is run. Its findings are merged if it counts any occurrence. -/
def DispatchState.merge (s : DispatchState) (id : String) (done : Processed) : DispatchState :=
  { report := if done.found = 0 then s.report else done.findings.foldl Report.add s.report
    index := done.index
    stats := { s.stats with ran := s.stats.ran ++ [id], found := s.stats.found + done.found } }

/-- Runs the processors in order. The first that fails ends the dispatch; what was merged before
stays. -/
def dispatch (host : Host) (files : Classification) (options : DispatchOptions) (s : DispatchState) :
    List Processor → DispatchState × Option DispatchFailure
  | [] => (s, none)
  | p :: processors =>
    if p.isSkipped files options then dispatch host files options (s.skip p.id) processors
    else
      match p.process host files s.index with
      | .error cause => (s, some ⟨p.id, cause⟩)
      | .ok done => dispatch host files options (s.merge p.id done) processors

end ShopLint
