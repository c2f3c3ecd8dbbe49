import ShopLint.Dispatch
import ShopLint.Proofs.Dict

/-!
What a dispatch of rules leaves in the report when none of them depends on the index that the rules
before it left: it fails nowhere, and the report gathers what each rule that is run finds with an index
of its own.
-/

namespace ShopLint

/-- What a rule finds with a class index of its own. -/
def Rule.alone (r : Rule) (host : Host) (files : Classification) : List Occurrence :=
  match r.run host files {} with
  | .ok (_, occurrences) => occurrences
  | .error _ => []

/-- With any index that satisfies `I` the rule finds what it finds alone, and leaves such an index. -/
def Rule.Steady (r : Rule) (host : Host) (files : Classification) (I : ClassIndex → Prop) : Prop :=
  ∀ index, I index → ∃ next, r.run host files index = .ok (next, r.alone host files) ∧ I next

theorem Occurrence.normalize_normalize (o : Occurrence) : o.normalize.normalize = o.normalize := by
  simp only [normalize]
  split
  · simp
  · simp_all

/-- The occurrences of a finding are already as the report would make them. -/
theorem Rule.finding_occurrences_normalize (r : Rule) (occurrences : List Occurrence) :
    (r.finding occurrences).occurrences.map Occurrence.normalize =
      (r.finding occurrences).occurrences := by
  simp [Rule.finding, Finding.occurrences, Function.comp_def, Occurrence.normalize_normalize]

namespace Report

/-- The report with a rule's finding, if there is anything in it. -/
def record (report : Report) (r : Rule) (found : List Occurrence) : Report :=
  if found.isEmpty then report else report.add (r.finding found)

/-- The report with the findings of several rules. -/
def gather (report : Report) (found : Rule → List Occurrence) (rules : List Rule) : Report :=
  rules.foldl (fun report r => report.record r (found r)) report

theorem get?_add_ne {report : Report} {f : Finding} {id : String} (ne : id ≠ f.ruleId) :
    (report.add f).findings.get? id = report.findings.get? id := by
  simp only [add]
  split
  · rfl
  · exact Dict.get?_alter_ne _ ne _

theorem get?_record_ne {report : Report} {r : Rule} {id : String} (found : List Occurrence)
    (ne : id ≠ r.id) : (report.record r found).findings.get? id = report.findings.get? id := by
  simp only [record]
  split
  · rfl
  · exact get?_add_ne ne

theorem get?_record_self {report : Report} {r : Rule} (found : List Occurrence)
    (reportable : r.id ≠ "" ∧ r.id ≠ infoKey) (fresh : report.findings.get? r.id = none) :
    (report.record r found).findings.get? r.id =
      if found.isEmpty then none else some (r.finding found) := by
  simp only [record]
  split
  · exact fresh
  · have named : ¬((r.finding found).ruleId = "" || (r.finding found).ruleId = infoKey) := by
      intro reserved
      rcases Bool.or_eq_true_iff.1 reserved with eq | eq
      · exact reportable.1 (of_decide_eq_true eq)
      · exact reportable.2 (of_decide_eq_true eq)
    simp only [add, if_neg named]
    rw [show r.id = (r.finding found).ruleId from rfl, Dict.get?_alter_self]
    rw [show report.findings.get? (r.finding found).ruleId = none from fresh]
    simp only [Rule.finding_occurrences_normalize]
    rfl

/-- Gathering keeps what the report has and adds the finding of each rule that found something. -/
theorem get?_gather {found : Rule → List Occurrence} {rules : List Rule} {report : Report}
    (reportable : ∀ r ∈ rules, r.id ≠ "" ∧ r.id ≠ infoKey) (distinct : (rules.map Rule.id).Nodup)
    (fresh : ∀ r ∈ rules, report.findings.get? r.id = none) (id : String) (f : Finding) :
    (report.gather found rules).findings.get? id = some f ↔
      report.findings.get? id = some f ∨
        ∃ r ∈ rules, r.id = id ∧ found r ≠ [] ∧ f = r.finding (found r) := by
  induction rules generalizing report with
  | nil => simp [gather]
  | cons r rules ih =>
    have ⟨other, distinct'⟩ := List.nodup_cons.1 distinct
    have apart : ∀ q ∈ rules, q.id ≠ r.id := by
      intro q mem eq
      exact other (eq ▸ List.mem_map_of_mem mem)
    have fresh' : ∀ q ∈ rules, (report.record r (found r)).findings.get? q.id = none := by
      intro q mem
      rw [get?_record_ne _ (apart q mem)]
      exact fresh q (List.mem_cons_of_mem _ mem)
    have step := ih (fun q mem => reportable q (List.mem_cons_of_mem _ mem)) distinct' fresh'
    show (gather (report.record r (found r)) found rules).findings.get? id = some f ↔ _
    rw [step, List.exists_mem_cons_iff]
    by_cases eq : id = r.id
    · subst eq
      rw [get?_record_self _ (reportable r List.mem_cons_self) (fresh r List.mem_cons_self),
        fresh r List.mem_cons_self]
      cases none : (found r).isEmpty with
      | true => simp [List.isEmpty_iff.1 none]
      | false =>
        have some : found r ≠ [] := by simpa using none
        simp [some, eq_comm (a := f)]
    · rw [get?_record_ne _ eq]
      simp [Ne.symm eq]

end Report

/-- A rule that finds nothing leaves the report as it is; otherwise its finding is added. -/
theorem DispatchState.merge_processed (s : DispatchState) (r : Rule) (index : ClassIndex)
    (found : List Occurrence) :
    (s.merge r.id (r.processed index found)).report = s.report.record r found := by
  simp only [merge, Rule.processed, Report.record, Int.natCast_eq_zero, List.length_eq_zero_iff,
    List.isEmpty_iff, List.foldl_cons, List.foldl_nil]

theorem Rule.process_of_run {r : Rule} {host : Host} {files : Classification} {index next : ClassIndex}
    {found : List Occurrence} (h : r.run host files index = .ok (next, found)) :
    r.processor.process host files index = .ok (r.processed next found) := by
  simp only [processor, h, Except.map]

theorem Rule.exists_run_of_process {r : Rule} {host : Host} {files : Classification}
    {index : ClassIndex} {done : Processed} (h : r.processor.process host files index = .ok done) :
    ∃ next found, r.run host files index = .ok (next, found) ∧ done = r.processed next found := by
  simp only [processor] at h
  cases run : r.run host files index with
  | error cause =>
    rw [run] at h
    cases h
  | ok outcome =>
    rw [run] at h
    cases h
    exact ⟨outcome.1, outcome.2, rfl, rfl⟩

/-- The whole dispatch follows from its steps: no rule fails, and what the report gains does not
depend on which rules were run before. -/
theorem dispatch_steady {host : Host} {files : Classification} (options : DispatchOptions)
    {I : ClassIndex → Prop} {rules : List Rule} {s : DispatchState}
    (steady : ∀ r ∈ rules, r.Steady host files I) (start : I s.index) :
    ∃ after, dispatch host files options s (rules.map Rule.processor) = (after, none) ∧
      after.report = s.report.gather (·.alone host files)
        (rules.filter fun r => !r.processor.isSkipped files options) := by
  induction rules generalizing s with
  | nil => exact ⟨s, rfl, rfl⟩
  | cons r rules ih =>
    have later : ∀ q ∈ rules, q.Steady host files I :=
      fun q mem => steady q (List.mem_cons_of_mem _ mem)
    cases skipped : r.processor.isSkipped files options with
    | true =>
      obtain ⟨after, run, report⟩ := ih (s := s.skip r.id) later start
      refine ⟨after, ?_, ?_⟩
      · simp only [List.map_cons, dispatch, skipped, if_true]
        exact run
      · rw [report]
        simp [skipped, DispatchState.skip]
    | false =>
      obtain ⟨next, ok, kept⟩ := steady r List.mem_cons_self s.index start
      let merged := s.merge r.id (r.processed next (r.alone host files))
      obtain ⟨after, run, report⟩ := ih (s := merged) later kept
      refine ⟨after, ?_, ?_⟩
      · simp only [List.map_cons, dispatch, skipped, Rule.process_of_run ok]
        exact run
      · rw [report, DispatchState.merge_processed]
        simp [skipped, Report.gather]

end ShopLint
