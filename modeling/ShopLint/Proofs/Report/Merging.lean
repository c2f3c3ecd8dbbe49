import ShopLint.Proofs.Dict
import ShopLint.Report.Basic
import Mathlib.Data.List.Perm.Basic

/-!
Reports that findings were merged into. Under each rule stand the occurrences of its findings in the
order in which they came, and nothing is lost or added.
-/

namespace ShopLint

/-- The finding is one that reports take: it names a rule, and not by the reserved key. -/
def Finding.isReportable (f : Finding) : Bool := f.ruleId ≠ "" && f.ruleId ≠ Report.infoKey

/-- What a report makes of the finding's occurrences. -/
def Finding.normalized (f : Finding) : List Occurrence := f.occurrences.map Occurrence.normalize

@[simp] theorem Occurrence.normalize_severity (o : Occurrence) : o.normalize.severity = o.severity := by
  simp only [normalize]
  split <;> rfl

/-- What each entry gives, together: setting one entry adds what the setting adds to it. -/
theorem Dict.flatMap_alter_perm {α β : Type} {dict : Dict α} {key : String} {f : Option α → α}
    {part : α → List β} {more : List β} (absent : part (f none) = more)
    (present : ∀ a, part (f (some a)) = part a ++ more) :
    ((dict.alter key f).values.flatMap part).Perm (dict.values.flatMap part ++ more) := by
  obtain ⟨entries, sorted⟩ := dict
  simp only [alter, values]
  clear sorted
  induction entries with
  | nil => simp [alterList, absent]
  | cons entry rest ih =>
    obtain ⟨k, v⟩ := entry
    simp only [alterList]
    split
    · simp only [List.map_cons, List.flatMap_cons, absent]
      exact List.perm_append_comm
    · split
      · simp only [List.map_cons, List.flatMap_cons, present, List.append_assoc]
        exact List.perm_append_comm.append_left _
      · simp only [List.map_cons, List.flatMap_cons, List.append_assoc]
        exact ih.append_left _

namespace Report

/-- The report with several findings merged in, one after the other. -/
def addAll (report : Report) (findings : List Finding) : Report := findings.foldl add report

/-- All occurrences, in the order of the rules. -/
def occurrences (report : Report) : List Occurrence := report.rules.flatMap Finding.occurrences

/-- The occurrences under a key. -/
def occurrencesOf (report : Report) (id : String) : List Occurrence :=
  ((report.findings.get? id).map Finding.occurrences).getD []

theorem start_occurrences (path : String) (generatedAt : Instant) :
    (start path generatedAt).occurrences = [] := rfl

theorem start_occurrencesOf (path : String) (generatedAt : Instant) (id : String) :
    (start path generatedAt).occurrencesOf id = [] := rfl

theorem occurrences_extend (f : Finding) (more : List Occurrence) :
    ({ f with listed := extend f.listed more } : Finding).occurrences = f.occurrences ++ more := by
  simp only [Finding.occurrences]
  cases f.listed with
  | none => cases more <;> rfl
  | some _ => rfl

/-- What adding makes of the finding that is already there. -/
def merge (f : Finding) : Option Finding → Finding
  | none => { f with listed := some f.normalized }
  | some first => { first with listed := extend first.listed f.normalized }

theorem add_of_not_isReportable {f : Finding} (h : f.isReportable = false) (report : Report) :
    report.add f = report := by
  have reserved : (f.ruleId = "" || f.ruleId = infoKey) = true := by
    simpa [Finding.isReportable, Decidable.or_iff_not_imp_left] using h
  simp only [add, if_pos reserved]

theorem add_of_isReportable {f : Finding} (h : f.isReportable) (report : Report) :
    report.add f = { report with findings := report.findings.alter f.ruleId (merge f) } := by
  have named : ¬(f.ruleId = "" || f.ruleId = infoKey) = true := by
    simpa [Finding.isReportable] using h
  simp only [add, if_neg named]
  rfl

@[simp] theorem info_add (report : Report) (f : Finding) : (report.add f).info = report.info := by
  simp only [add]
  split <;> rfl

theorem info_addAll (report : Report) (findings : List Finding) :
    (report.addAll findings).info = report.info := by
  induction findings generalizing report with
  | nil => rfl
  | cons f findings ih => exact (ih (report.add f)).trans (report.info_add f)

/-! Occurrences -/

theorem occurrencesOf_add (report : Report) (f : Finding) (id : String) :
    (report.add f).occurrencesOf id =
      report.occurrencesOf id ++ if f.isReportable && f.ruleId = id then f.normalized else [] := by
  by_cases reportable : f.isReportable
  · simp only [add_of_isReportable reportable, occurrencesOf, reportable, Bool.true_and]
    by_cases same : f.ruleId = id
    · subst same
      rw [Dict.get?_alter_self]
      cases report.findings.get? f.ruleId with
      | none => simp [merge, Finding.occurrences]
      | some first => simp [merge, occurrences_extend]
    · rw [Dict.get?_alter_ne _ (Ne.symm same)]
      simp [same]
  · have refused := Bool.not_eq_true _ ▸ reportable
    rw [add_of_not_isReportable refused]
    simp [refused]

/-- Under each rule stand the occurrences of its findings, in the order in which they came. -/
theorem occurrencesOf_addAll (report : Report) (findings : List Finding) (id : String) :
    (report.addAll findings).occurrencesOf id =
      report.occurrencesOf id ++
        (findings.filter fun f => f.isReportable && f.ruleId = id).flatMap Finding.normalized := by
  induction findings generalizing report with
  | nil => simp [addAll]
  | cons f findings ih =>
    have later := ih (report.add f)
    rw [occurrencesOf_add] at later
    rw [show report.addAll (f :: findings) = (report.add f).addAll findings from rfl, later]
    cases taken : f.isReportable && decide (f.ruleId = id) with
    | true => simp [taken]
    | false => simp [taken]

theorem occurrences_add_perm (report : Report) (f : Finding) :
    (report.add f).occurrences.Perm
      (report.occurrences ++ if f.isReportable then f.normalized else []) := by
  by_cases reportable : f.isReportable
  · rw [add_of_isReportable reportable, if_pos reportable]
    exact Dict.flatMap_alter_perm rfl fun first => occurrences_extend first f.normalized
  · rw [add_of_not_isReportable (Bool.not_eq_true _ ▸ reportable), if_neg reportable, List.append_nil]

/-- A report holds just the occurrences of the findings that were merged into it. -/
theorem occurrences_addAll_perm (report : Report) (findings : List Finding) :
    (report.addAll findings).occurrences.Perm
      (report.occurrences ++ (findings.filter Finding.isReportable).flatMap Finding.normalized) := by
  induction findings generalizing report with
  | nil => simp [addAll]
  | cons f findings ih =>
    have later := ih (report.add f)
    have here := (report.occurrences_add_perm f).append_right
      ((findings.filter Finding.isReportable).flatMap Finding.normalized)
    refine (later.trans here).trans (List.Perm.of_eq ?_)
    by_cases reportable : f.isReportable
    · simp [reportable]
    · simp [reportable]

/-! What holds of every report that findings were merged into -/

/-- Each finding stands under the rule it names and has a list, and `P` holds of each occurrence. -/
def Tidy (P : Occurrence → Prop) (report : Report) : Prop :=
  ∀ id f, report.findings.get? id = some f →
    f.ruleId = id ∧ f.isReportable ∧ f.listed.isSome ∧ ∀ o ∈ f.occurrences, P o

theorem Tidy.start (P : Occurrence → Prop) (info : ScanInfo) : Tidy P { info := info } := by
  intro id f found
  simp at found

theorem Tidy.add {P : Occurrence → Prop} {report : Report} (h : report.Tidy P) {f : Finding}
    (new : ∀ o ∈ f.occurrences, P o.normalize) : (report.add f).Tidy P := by
  by_cases reportable : f.isReportable
  · have added : ∀ o ∈ f.normalized, P o := by
      intro o mem
      obtain ⟨raw, inFinding, rfl⟩ := List.mem_map.1 mem
      exact new raw inFinding
    rw [add_of_isReportable reportable]
    intro id g found
    by_cases same : id = f.ruleId
    · subst same
      rw [Dict.get?_alter_self, Option.some.injEq] at found
      subst found
      cases known : report.findings.get? f.ruleId with
      | none => exact ⟨rfl, reportable, rfl, added⟩
      | some first =>
        obtain ⟨named, first_reportable, listed, old⟩ := h _ _ known
        obtain ⟨list, eq⟩ := Option.isSome_iff_exists.1 listed
        refine ⟨named, first_reportable, ?_, fun o mem => ?_⟩
        · simp [merge, extend, eq]
        · rw [merge, occurrences_extend] at mem
          rcases List.mem_append.1 mem with before | now
          · exact old o before
          · exact added o now
    · rw [Dict.get?_alter_ne _ same] at found
      exact h id g found
  · rw [add_of_not_isReportable (Bool.not_eq_true _ ▸ reportable)]
    exact h

theorem Tidy.addAll {P : Occurrence → Prop} {report : Report} (h : report.Tidy P)
    {findings : List Finding} (new : ∀ f ∈ findings, ∀ o ∈ f.occurrences, P o.normalize) :
    (report.addAll findings).Tidy P := by
  induction findings generalizing report with
  | nil => exact h
  | cons f findings ih =>
    exact ih (h.add (new f List.mem_cons_self)) fun g mem => new g (List.mem_cons_of_mem _ mem)

/-- The keys of a tidy report are the rules that its findings name. -/
theorem Tidy.keys_eq {P : Occurrence → Prop} {report : Report} (h : report.Tidy P) :
    report.rules.map Finding.ruleId = report.ids := by
  simp only [rules, ids, Dict.values, Dict.keys, List.map_map]
  apply List.map_congr_left
  rintro ⟨id, f⟩ mem
  exact (h id f ((Dict.mem_entries_iff _ id f).1 mem)).1

theorem Tidy.ne_infoKey {P : Occurrence → Prop} {report : Report} (h : report.Tidy P)
    {e : String × Finding} (mem : e ∈ report.findings.entries) : e.1 ≠ infoKey := by
  obtain ⟨named, reportable, -, -⟩ := h e.1 e.2 ((Dict.mem_entries_iff _ _ _).1 mem)
  rw [Finding.isReportable, Bool.and_eq_true, decide_eq_true_eq, decide_eq_true_eq] at reportable
  exact named ▸ reportable.2

theorem Tidy.of_mem_occurrences {P : Occurrence → Prop} {report : Report} (h : report.Tidy P)
    {o : Occurrence} (mem : o ∈ report.occurrences) : P o := by
  obtain ⟨f, listed, inFinding⟩ := List.mem_flatMap.1 mem
  obtain ⟨id, found⟩ := (Dict.mem_values_iff _ f).1 listed
  exact (h id f found).2.2.2 o inFinding

theorem Tidy.of_occurrences {P Q : Occurrence → Prop} {report : Report} (h : report.Tidy P)
    (all : ∀ o ∈ report.occurrences, Q o) : report.Tidy Q := by
  intro id f found
  obtain ⟨named, reportable, listed, -⟩ := h id f found
  refine ⟨named, reportable, listed, fun o mem => all o ?_⟩
  exact List.mem_flatMap.2 ⟨f, (Dict.mem_values_iff _ f).2 ⟨id, found⟩, mem⟩

theorem Tidy.of_addAll {P : Occurrence → Prop} {info : ScanInfo} {findings : List Finding}
    (all : ∀ o ∈ (Report.addAll { info := info } findings).occurrences, P o) :
    (Report.addAll { info := info } findings).Tidy P :=
  ((Tidy.start (fun _ => True) info).addAll fun _ _ _ _ => trivial).of_occurrences all

end Report

end ShopLint
