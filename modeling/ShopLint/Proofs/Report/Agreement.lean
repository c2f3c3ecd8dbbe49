import ShopLint.Gate.Basic
import ShopLint.Proofs.Report.Merging
import ShopLint.Proofs.Severity
import ShopLint.Report.Page
import ShopLint.Report.Sarif

/-!
Three views of one report, the log, the page and the summary for the gate, are made by traversals of
their own, which skip empty findings and fill in missing severities each in its way. They agree on how
many occurrences there are and on the rules that occur, and differ in their counts by exactly the
occurrences without severity.
-/

namespace ShopLint

namespace Report

/-- Leaving out the findings without occurrences loses no occurrence. -/
theorem flatMap_occurring (report : Report) :
    report.occurring.flatMap Finding.occurrences = report.occurrences := by
  simp only [occurring, occurrences]
  induction report.rules with
  | nil => rfl
  | cons f findings ih =>
    cases empty : f.occurrences.isEmpty with
    | true => simp [List.isEmpty_iff.1 empty, ih]
    | false => simp [empty, ih]

/-- The severities as they were given, in the order of the rules. -/
def severities (report : Report) : List Severity := report.occurrences.map Occurrence.severity

theorem counts_eq (report : Report) (fallback : Severity) :
    report.counts fallback = countBySeverity report.occurrences fallback := by
  rw [counts, SeverityCounts.foldl_add_countBySeverity, SeverityCounts.zero_add]
  rfl

/-- The rules that occur, in increasing order. -/
theorem Tidy.occurring_increasing {P : Occurrence → Prop} {report : Report} (h : report.Tidy P) :
    (report.occurring.map Finding.ruleId).Pairwise (· < ·) := by
  have ids : (report.rules.map Finding.ruleId).Pairwise (· < ·) := by
    rw [h.keys_eq]
    exact report.findings.keys_sorted
  exact ids.sublist (List.filter_sublist.map _)

theorem Tidy.mem_occurring {P : Occurrence → Prop} {report : Report} (h : report.Tidy P) (id : String) :
    id ∈ report.occurring.map Finding.ruleId ↔ report.occurrencesOf id ≠ [] := by
  simp only [occurring, List.mem_map, List.mem_filter, occurrencesOf]
  constructor
  · rintro ⟨f, ⟨listed, some⟩, rfl⟩
    obtain ⟨id, found⟩ := (Dict.mem_values_iff _ f).1 listed
    rw [(h id f found).1, found]
    simpa using some
  · intro some
    cases found : report.findings.get? id with
    | none => simp [found] at some
    | some f =>
      have listed : f ∈ report.rules := (Dict.mem_values_iff _ f).2 ⟨id, found⟩
      refine ⟨f, ⟨listed, ?_⟩, (h id f found).1⟩
      simpa [found] using some

end Report

/-! The counts of each view, by the severities that were given -/

namespace Sarif

theorem levels_resultsFrom (host : Host) (index : Nat) (findings : List Finding) :
    (resultsFrom host index findings).map Result.level =
      ((findings.flatMap Finding.occurrences).map Occurrence.severity).map (·.orElse .warning) := by
  induction findings generalizing index with
  | nil => rfl
  | cons f findings ih =>
    simp only [resultsFrom, List.map_append, List.map_map, List.flatMap_cons, ih]
    rfl

/-- There is one result for each occurrence, and a missing severity is a warning. -/
theorem Log.levels_ofReport (host : Host) (options : RenderOptions) (report : Report) :
    (Log.ofReport host options report).results.map Result.level =
      report.severities.map (·.orElse .warning) := by
  rw [Report.severities, ← report.flatMap_occurring]
  exact levels_resultsFrom host 0 report.occurring

theorem Log.count_level (host : Host) (options : RenderOptions) (report : Report) {s : Severity}
    (given : s ≠ .unset) :
    ((Log.ofReport host options report).results.map Result.level).count s =
      report.severities.count s + if s = .warning then report.severities.count .unset else 0 := by
  rw [levels_ofReport, Severity.count_map_orElse _ given]

end Sarif

theorem Page.totals_ofReport (options : RenderOptions) (report : Report) :
    (Page.ofReport options report).totals =
      ⟨report.severities.count .error, report.severities.count .warning,
        report.severities.count .note + report.severities.count .unset⟩ := by
  have sections : (Page.ofReport options report).totals =
      (report.occurring.map fun f => countBySeverity f.occurrences .note).foldl (· + ·) {} := by
    simp only [totals, ofReport, List.map_map]
    rfl
  rw [sections, SeverityCounts.foldl_add_countBySeverity, report.flatMap_occurring,
    SeverityCounts.zero_add, countBySeverity_eq]
  rfl

namespace Gate.Summary

theorem ofReport_counts (report : Report) :
    (ofReport report).errors = report.severities.count .error ∧
      (ofReport report).warnings = report.severities.count .warning + report.severities.count .unset ∧
      (ofReport report).notes = report.severities.count .note := by
  have counts := (report.counts_eq .warning).trans (countBySeverity_eq report.occurrences .warning)
  simp only [ofReport, counts]
  exact ⟨rfl, rfl, rfl⟩

/-- The sum in 64 bits is the sum, if that fits. -/
theorem total_eq {s : Summary} (h : Word.isSigned (s.errors + s.warnings + s.notes)) :
    s.total = s.errors + s.warnings + s.notes := by
  obtain ⟨lower, upper⟩ := Word.isSigned_iff.1 h
  rw [total, ← Int64.ofInt_add, ← Int64.ofInt_add, Int64.toInt_ofInt, show Int64.size = 2 ^ 64 from rfl]
  exact Int.bmod_eq_of_le (by omega) (by omega)

end Gate.Summary

/-- What the three views of a report say, given the findings that were merged into it. -/
structure Report.ViewsAgree (added : List Finding) (report : Report) (log : Sarif.Log) (page : Page)
    (summary : Gate.Summary) : Prop where
  /-- The report holds what was merged into it. -/
  gathered : report.occurrences.length =
    ((added.filter Finding.isReportable).flatMap Finding.occurrences).length
  results : log.results.length = report.occurrences.length
  shown : page.totals.total = report.occurrences.length
  counted : summary.errors + summary.warnings + summary.notes = report.occurrences.length
  /-- Any number of occurrences that a machine can hold fits in a word. -/
  total : Word.isSigned report.occurrences.length → summary.total = report.occurrences.length
  logRules : log.rules.map Sarif.RuleEntry.id = summary.rules
  pageRules : page.sections.map Page.Section.id = summary.rules
  increasing : summary.rules.Pairwise (· < ·)
  /-- The rules listed are those with at least one occurrence. -/
  occurring : ∀ id, id ∈ summary.rules ↔
    ∃ f ∈ added, f.isReportable ∧ f.ruleId = id ∧ f.occurrences ≠ []
  errors : summary.errors = page.totals.errors
  levels : ((log.results.map Sarif.Result.level).count .error : Int) = summary.errors ∧
    ((log.results.map Sarif.Result.level).count .warning : Int) = summary.warnings ∧
    ((log.results.map Sarif.Result.level).count .note : Int) = summary.notes
  /-- Where no severity was given the gate sees a warning and the page a note. -/
  warnings : summary.warnings =
    page.totals.warnings + report.severities.count .unset
  notes : (page.totals.notes : Int) =
    summary.notes + report.severities.count .unset

/-- **The views of a report agree.** This holds for any findings whose severities are of the three
names or not given, in any order and with any rules repeated. -/
theorem Report.views_agree (host : Host) (logOptions pageOptions : RenderOptions) (path : String)
    (generatedAt : Instant) (added : List Finding)
    (known : ∀ f ∈ added, ∀ o ∈ f.occurrences, o.severity.IsKnown) :
    let report := (Report.start path generatedAt).addAll added
    ViewsAgree added report (.ofReport host logOptions report) (.ofReport pageOptions report)
      (.ofReport report) := by
  intro report
  have tidy : report.Tidy fun o => o.severity.IsKnown := by
    refine (Tidy.start _ _).addAll fun f mem o listed => ?_
    rw [Occurrence.normalize_severity]
    exact known f mem o listed
  -- every count below is a sum of these four
  have length : report.occurrences.length = report.severities.count .error +
      report.severities.count .warning + report.severities.count .note +
      report.severities.count .unset := by
    rw [← Severity.length_of_known, severities, List.length_map]
    intro s mem
    obtain ⟨o, listed, rfl⟩ := List.mem_map.1 mem
    exact tidy.of_mem_occurrences listed
  have level {s : Severity} (given : s ≠ .unset) := Sarif.Log.count_level host logOptions report given
  have totals := Page.totals_ofReport pageOptions report
  obtain ⟨errors, warnings, notes⟩ := Gate.Summary.ofReport_counts report
  have counted : (Gate.Summary.ofReport report).errors + (Gate.Summary.ofReport report).warnings +
      (Gate.Summary.ofReport report).notes = report.occurrences.length := by
    rw [errors, warnings, notes, length]
    omega
  constructor
  case gathered =>
    rw [(occurrences_addAll_perm (start path generatedAt) added).length_eq]
    simp only [start_occurrences, List.nil_append, List.length_flatMap, Finding.normalized,
      List.length_map]
  case results =>
    rw [← List.length_map (f := Sarif.Result.level), Sarif.Log.levels_ofReport, List.length_map,
      severities, List.length_map]
  case shown =>
    rw [totals, length]
    simp only [SeverityCounts.total]
    omega
  case counted => exact counted
  case total =>
    intro fits
    rw [← counted] at fits ⊢
    exact Gate.Summary.total_eq fits
  case logRules => simp only [Sarif.Log.ofReport, Gate.Summary.ofReport, List.map_map]; rfl
  case pageRules => simp only [Page.ofReport, Gate.Summary.ofReport, List.map_map]; rfl
  case increasing => exact tidy.occurring_increasing
  case occurring =>
    intro id
    rw [show (Gate.Summary.ofReport report).rules = report.occurring.map Finding.ruleId from rfl,
      tidy.mem_occurring, occurrencesOf_addAll, start_occurrencesOf, List.nil_append, ne_eq,
      List.flatMap_eq_nil_iff]
    simp only [List.mem_filter, Bool.and_eq_true, decide_eq_true_eq, Finding.normalized,
      List.map_eq_nil_iff, not_forall, exists_prop]
    exact exists_congr fun f => by rw [and_assoc, and_assoc]
  case errors => rw [errors, totals]
  case levels =>
    rw [level (by decide), level (by decide), level (by decide), errors, warnings, notes]
    exact ⟨rfl, rfl, rfl⟩
  case warnings => rw [warnings, totals]
  case notes =>
    rw [notes, totals, Int.natCast_add]

/-- A rule that comes twice, one that found nothing, and one that has the reserved key. -/
def mixedFindings : List Finding := [
  { ruleId := "sql", listed := some [{ severity := .error }, { file := "a.php" }] },
  { ruleId := "layout" },
  { ruleId := "block", listed := some [{ severity := .note }] },
  { ruleId := Report.infoKey, listed := some [{ severity := .error }] },
  { ruleId := "sql", listed := some [{ severity := .warning, startLine := 7 }] }]

/-- A machine without files. -/
def bareHost : Host := { tree := .dir [], cwd := "/", env := {} }

theorem Report.views_agree_mixedFindings :
    (∀ f ∈ mixedFindings, ∀ o ∈ f.occurrences, o.severity.IsKnown) ∧
    let report := (Report.start "/srv" .zero).addAll mixedFindings
    (Gate.Summary.ofReport report).rules = ["block", "sql"] ∧
    ViewsAgree mixedFindings report (.ofReport bareHost {} report) (.ofReport {} report)
      (.ofReport report) :=
  have known : ∀ f ∈ mixedFindings, ∀ o ∈ f.occurrences, o.severity.IsKnown := by decide
  ⟨known, by decide, Report.views_agree bareHost {} {} "/srv" .zero mixedFindings known⟩

end ShopLint
