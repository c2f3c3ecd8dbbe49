import ShopLint.Proofs.Report.Agreement
import ShopLint.Proofs.Text.Order
import Mathlib.Data.List.Induction

/-!
How much the order of findings matters to a report. Each rule has its own finding, which depends only
on the findings of that rule and their order: the first of them describes it, and the occurrences of
all follow each other. So findings of different rules can change places.
-/

namespace ShopLint

/-- The occurrence as it stands in a report. -/
def Occurrence.settled (o : Occurrence) : Occurrence := { o with endLine := max o.startLine o.endLine }

theorem Occurrence.normalize_eq_settled (o : Occurrence) : o.normalize = o.settled := by
  simp only [normalize, settled]
  split
  next before => rw [Int.max_eq_left (Int.le_of_lt before)]
  next notBefore => rw [Int.max_eq_right (Int.not_lt.1 notBefore)]

theorem Finding.normalized_eq (f : Finding) : f.normalized = f.occurrences.map Occurrence.settled :=
  List.map_congr_left fun o _ => o.normalize_eq_settled

theorem Finding.isReportable_iff (f : Finding) :
    f.isReportable ↔ f.ruleId ≠ "" ∧ f.ruleId ≠ Report.infoKey := by
  simp only [isReportable, Bool.and_eq_true, decide_eq_true_eq]

/-- Counts do not depend on the order of the occurrences. -/
theorem countBySeverity_perm {os ps : List Occurrence} (h : os.Perm ps) (fallback : Severity) :
    countBySeverity os fallback = countBySeverity ps fallback := by
  have severities := h.map Occurrence.severity
  simp only [countBySeverity_eq, severities.count_eq]

namespace Report

@[ext] theorem ext {a b : Report} (findings : a.findings = b.findings) (info : a.info = b.info) :
    a = b := by
  cases a; cases b; simp_all

/-- The findings of one rule among those that reports take. -/
def findingsOf (added : List Finding) (id : String) : List Finding :=
  added.filter fun f => f.isReportable && f.ruleId = id

/-- What the findings of a rule come to: the first describes the rule. -/
def combined : List Finding → Option Finding
  | [] => none
  | first :: more => some { first with
      listed := some ((first :: more).flatMap fun f => f.occurrences.map Occurrence.settled) }

theorem combined_concat (findings : List Finding) (f : Finding) :
    combined (findings ++ [f]) = some (merge f (combined findings)) := by
  cases findings with
  | nil => simp [combined, merge, Finding.normalized_eq]
  | cons first more => simp [combined, merge, extend, Finding.normalized_eq]

theorem findingsOf_concat (added : List Finding) (f : Finding) (id : String) :
    findingsOf (added ++ [f]) id =
      findingsOf added id ++ if f.isReportable && f.ruleId = id then [f] else [] := by
  simp only [findingsOf, List.filter_append, List.filter_cons, List.filter_nil]

/-- Under each rule stands what its findings come to. -/
theorem get?_addAll (path : String) (generatedAt : Instant) (added : List Finding) (id : String) :
    ((start path generatedAt).addAll added).findings.get? id = combined (findingsOf added id) := by
  induction added using List.reverseRecOn with
  | nil => rfl
  | append_singleton added f ih =>
    have last : (start path generatedAt).addAll (added ++ [f]) =
        ((start path generatedAt).addAll added).add f := by
      simp only [addAll, List.foldl_append, List.foldl_cons, List.foldl_nil]
    rw [last, findingsOf_concat]
    by_cases reportable : f.isReportable
    · rw [add_of_isReportable reportable]
      by_cases same : f.ruleId = id
      · subst same
        rw [Dict.get?_alter_self, ih, if_pos (by simpa using reportable), combined_concat]
      · rw [Dict.get?_alter_ne _ (Ne.symm same), ih, if_neg (by simp [same]), List.append_nil]
    · rw [add_of_not_isReportable (Bool.not_eq_true _ ▸ reportable), ih, if_neg (by simp [reportable]),
        List.append_nil]

/-- A rule has a finding when one was added that reports take. -/
theorem mem_ids_addAll (path : String) (generatedAt : Instant) (added : List Finding) (id : String) :
    id ∈ ((start path generatedAt).addAll added).ids ↔
      id ≠ "" ∧ id ≠ infoKey ∧ ∃ f ∈ added, f.ruleId = id := by
  rw [ids, Dict.mem_keys_iff]
  simp only [get?_addAll]
  constructor
  · rintro ⟨f, found⟩
    cases listed : findingsOf added id with
    | nil => simp [listed, combined] at found
    | cons first more =>
      have mem : first ∈ findingsOf added id := listed ▸ List.mem_cons_self
      obtain ⟨inAdded, ok⟩ := List.mem_filter.1 mem
      obtain ⟨reportable, same⟩ := Bool.and_eq_true_iff.1 ok
      obtain ⟨named, unreserved⟩ := first.isReportable_iff.1 reportable
      obtain rfl := of_decide_eq_true same
      exact ⟨named, unreserved, first, inAdded, rfl⟩
  · rintro ⟨named, unreserved, f, inAdded, rfl⟩
    have mem : f ∈ findingsOf added f.ruleId := by
      refine List.mem_filter.2 ⟨inAdded, ?_⟩
      simpa using f.isReportable_iff.2 ⟨named, unreserved⟩
    obtain ⟨first, more, eq⟩ := List.exists_cons_of_ne_nil (List.ne_nil_of_mem mem)
    rw [eq]
    exact ⟨_, rfl⟩

/-- The first finding of a rule describes it. -/
theorem get?_addAll_of_first (path : String) (generatedAt : Instant) {before : List Finding}
    {first : Finding} (later : List Finding) (named : first.ruleId ≠ "")
    (unreserved : first.ruleId ≠ infoKey) (fresh : ∀ f ∈ before, f.ruleId ≠ first.ruleId) :
    ((start path generatedAt).addAll (before ++ first :: later)).findings.get? first.ruleId =
      some { first with
        listed := some (((before ++ first :: later).filter (·.ruleId = first.ruleId)).flatMap fun f =>
          f.occurrences.map Occurrence.settled) } := by
  have all : findingsOf (before ++ first :: later) first.ruleId =
      (before ++ first :: later).filter (·.ruleId = first.ruleId) := by
    apply List.filter_congr
    intro f _
    by_cases same : f.ruleId = first.ruleId
    · simp [same, f.isReportable_iff, named, unreserved]
    · simp [same]
  have earlier : before.filter (·.ruleId = first.ruleId) = [] := by
    simpa [List.filter_eq_nil_iff] using fresh
  rw [get?_addAll, all, List.filter_append, earlier, List.nil_append, List.filter_cons_of_pos (by simp)]
  rfl

/-- Two findings of different rules are never both among those of one rule. -/
theorem findingsOf_exchange {a b : Finding} (apart : a.ruleId ≠ b.ruleId) (before later : List Finding)
    (id : String) :
    findingsOf (before ++ b :: a :: later) id = findingsOf (before ++ a :: b :: later) id := by
  simp only [findingsOf, List.filter_append, List.filter_cons]
  by_cases first : a.ruleId = id
  · have second : b.ruleId ≠ id := fun eq => apart (first.trans eq.symm)
    simp [second]
  · simp [first]

theorem addAll_exchange (path : String) (generatedAt : Instant) {a b : Finding}
    (apart : a.ruleId ≠ b.ruleId) (before later : List Finding) :
    (start path generatedAt).addAll (before ++ b :: a :: later) =
      (start path generatedAt).addAll (before ++ a :: b :: later) := by
  apply ext
  · apply Dict.ext_get?
    intro id
    rw [get?_addAll, get?_addAll, findingsOf_exchange apart]
  · rw [info_addAll, info_addAll]

/-- The counts of a report are those of the findings it took, added up. -/
theorem counts_addAll (path : String) (generatedAt : Instant) (added : List Finding)
    (fallback : Severity) :
    ((start path generatedAt).addAll added).counts fallback =
      ((added.filter Finding.isReportable).map fun f =>
        countBySeverity f.occurrences fallback).foldl (· + ·) {} := by
  have perm := occurrences_addAll_perm (start path generatedAt) added
  rw [start_occurrences, List.nil_append] at perm
  have severities : ((added.filter Finding.isReportable).flatMap Finding.normalized).map
      Occurrence.severity =
      ((added.filter Finding.isReportable).flatMap Finding.occurrences).map Occurrence.severity := by
    simp only [List.map_flatMap, Finding.normalized, List.map_map, Function.comp_def,
      Occurrence.normalize_severity]
  rw [counts_eq, countBySeverity_perm perm, SeverityCounts.foldl_add_countBySeverity,
    SeverityCounts.zero_add, countBySeverity_eq, countBySeverity_eq, severities]

/-- What a report of the given path and time has become after some findings were added to it. -/
structure Merged (path : String) (generatedAt : Instant) (added : List Finding) (report : Report) :
    Prop where
  info : report.info = { path := path, generatedAt := generatedAt }
  /-- There is a finding for each rule added, other than those that cannot be. -/
  ids : ∀ id, id ∈ report.ids ↔ id ≠ "" ∧ id ≠ infoKey ∧ ∃ f ∈ added, f.ruleId = id
  increasing : report.ids.Pairwise fun a b => Text.bytes a < Text.bytes b
  /-- The findings are listed in the order of their rules. -/
  rules : report.rules.map some = report.ids.map report.findings.get?
  /-- The first finding of a rule gives all but the occurrences, which are those of all its findings
  in the order in which they came. -/
  finding : ∀ before first later, added = before ++ first :: later →
    first.ruleId ≠ "" → first.ruleId ≠ infoKey → (∀ f ∈ before, f.ruleId ≠ first.ruleId) →
    report.findings.get? first.ruleId = some { first with
      listed := some ((added.filter (·.ruleId = first.ruleId)).flatMap fun f =>
        f.occurrences.map fun o => { o with endLine := max o.startLine o.endLine }) }
  counts : ∀ fallback, report.counts fallback =
    ((added.filter fun f => f.ruleId ≠ "" ∧ f.ruleId ≠ infoKey).map fun f =>
      countBySeverity f.occurrences fallback).foldl (· + ·) {}
  /-- Neighbours of different rules can change places. -/
  exchange : ∀ before a b later, added = before ++ a :: b :: later → a.ruleId ≠ b.ruleId →
    (start path generatedAt).addAll (before ++ b :: a :: later) = report

/-- **A report merges what is added to it**, whatever the findings are and in whatever order. -/
theorem addAll_merged (path : String) (generatedAt : Instant) (added : List Finding) :
    Merged path generatedAt added ((start path generatedAt).addAll added) := by
  constructor
  case info => exact info_addAll _ _
  case ids => exact mem_ids_addAll path generatedAt added
  case increasing => exact (Dict.keys_sorted _).imp Text.bytes_lt_iff.2
  case rules =>
    simp only [rules, ids, Dict.values, Dict.keys, List.map_map]
    apply List.map_congr_left
    rintro ⟨id, f⟩ mem
    exact ((Dict.mem_entries_iff _ id f).1 mem).symm
  case finding =>
    rintro before first later rfl named unreserved fresh
    exact get?_addAll_of_first path generatedAt later named unreserved fresh
  case counts =>
    intro fallback
    have taken : (added.filter fun f => f.ruleId ≠ "" ∧ f.ruleId ≠ infoKey) =
        added.filter Finding.isReportable :=
      List.filter_congr fun f _ => Bool.decide_and _ _
    rw [counts_addAll, taken]
  case exchange =>
    rintro before a b later rfl apart
    exact addAll_exchange path generatedAt apart before later

end Report

end ShopLint
