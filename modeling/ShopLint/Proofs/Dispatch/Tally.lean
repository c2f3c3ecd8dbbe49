import ShopLint.Proofs.Dispatch
import ShopLint.Proofs.Dispatch.Ending
import ShopLint.Proofs.Registry.Accounting
import ShopLint.Proofs.Report.Order
import Mathlib.Data.Set.List

/-!
What a dispatch counts and what its report holds. The rules of a registry have different identifiers,
so each that finds something has a finding of its own in the report. The one exception is a rule that
goes by the key reserved for the scan's data: its occurrences are counted, and lost.
-/

namespace ShopLint

section Turns

variable (host : Host) (files : Classification) (options : DispatchOptions)

/-- The rule is one of the list, is run in its turn, and finds these occurrences. -/
def Finds (start : DispatchState) (rules : List Rule) (r : Rule) (found : List Occurrence) : Prop :=
  ∃ before later, rules = before ++ r :: later ∧ ¬r.processor.Excluded files options ∧
    ∃ index, r.run host files (dispatch host files options start (before.map Rule.processor)).1.index =
      .ok (index, found)

/-- The rules that are run, each with what it finds. -/
def turns (index : ClassIndex) : List Rule → List (Rule × List Occurrence)
  | [] => []
  | r :: rules =>
    if r.processor.Excluded files options then turns index rules
    else
      match r.run host files index with
      | .error _ => []
      | .ok (next, found) => (r, found) :: turns next rules

/-- The finding of a turn, if there is anything in it. -/
def findingOfTurn (turn : Rule × List Occurrence) : List Finding :=
  if turn.2.isEmpty then [] else [turn.1.finding turn.2]

variable {host files options}

theorem rules_turns_sublist (index : ClassIndex) (rules : List Rule) :
    ((turns host files options index rules).map Prod.fst).Sublist rules := by
  induction rules generalizing index with
  | nil => exact .slnil
  | cons r rules ih =>
    rw [turns]
    split
    · exact (ih index).cons r
    · split
      · exact List.nil_sublist _
      next next found _ => exact (ih next).cons_cons r

/-- The first rule of a dispatch that comes to its end. -/
theorem dispatch_cons_done {s t : DispatchState} {r : Rule} {rules : List Rule}
    (h : dispatch host files options s ((r :: rules).map Rule.processor) = (t, none)) :
    ∃ u, dispatch host files options s [r.processor] = (u, none) ∧
      dispatch host files options u (rules.map Rule.processor) = (t, none) ∧
      (r.processor.Excluded files options ∧ u = s.skip r.id ∧
          turns host files options s.index (r :: rules) = turns host files options u.index rules ∨
        ¬r.processor.Excluded files options ∧
          ∃ index found, r.run host files s.index = .ok (index, found) ∧
            u = s.merge r.id (r.processed index found) ∧
            turns host files options s.index (r :: rules) =
              (r, found) :: turns host files options u.index rules) := by
  rw [List.map_cons, ← List.singleton_append] at h
  obtain ⟨u, first, rest⟩ := exists_done_of_append h
  refine ⟨u, first, rest, ?_⟩
  rcases dispatch_singleton s r.processor with
    ⟨excluded, skip⟩ | ⟨wanted, ⟨done, processed, ok⟩ | ⟨_, _, failed⟩⟩
  · cases skip.symm.trans first
    exact .inl ⟨excluded, rfl, by rw [turns, if_pos excluded]; rfl⟩
  · cases ok.symm.trans first
    obtain ⟨index, found, run, rfl⟩ := Rule.exists_run_of_process processed
    exact .inr ⟨wanted, index, found, run, rfl, by rw [turns, if_neg wanted, run]; rfl⟩
  · cases failed.symm.trans first

/-- What a dispatch that comes to its end counts and reports is what the rules find in their turns. -/
theorem dispatch_turns {s t : DispatchState} {rules : List Rule}
    (h : dispatch host files options s (rules.map Rule.processor) = (t, none)) :
    t.stats.found = s.stats.found +
      ((turns host files options s.index rules).flatMap Prod.snd).length ∧
    t.report = s.report.addAll ((turns host files options s.index rules).flatMap findingOfTurn) := by
  induction rules generalizing s with
  | nil =>
    cases h
    exact ⟨(Int.add_zero _).symm, rfl⟩
  | cons r rules ih =>
    obtain ⟨u, -, rest, ⟨-, rfl, eq⟩ | ⟨-, index, found, -, rfl, eq⟩⟩ := dispatch_cons_done h
    · have later := ih rest
      rw [eq]
      exact later
    · obtain ⟨counted, report⟩ := ih rest
      rw [eq, counted, report, DispatchState.merge_processed]
      constructor
      · simp [DispatchState.merge, Rule.processed, Int.add_assoc]
      · rw [List.flatMap_cons, findingOfTurn, Report.record]
        split
        · rfl
        · rfl

theorem exists_finds {s t : DispatchState} {rules : List Rule}
    (h : dispatch host files options s (rules.map Rule.processor) = (t, none)) {r : Rule}
    (mem : r ∈ rules) (wanted : ¬r.processor.Excluded files options) :
    ∃ found, Finds host files options s rules r found := by
  obtain ⟨before, later, rfl⟩ := List.append_of_mem mem
  rw [List.map_append] at h
  obtain ⟨u, first, rest⟩ := exists_done_of_append h
  obtain ⟨v, -, -, ⟨excluded, -⟩ | ⟨-, index, found, run, -⟩⟩ := dispatch_cons_done rest
  · exact absurd excluded wanted
  · refine ⟨found, before, later, rfl, wanted, index, ?_⟩
    rw [first]
    exact run

theorem finds_iff_mem_turns {s t : DispatchState} {rules : List Rule}
    (h : dispatch host files options s (rules.map Rule.processor) = (t, none)) (r : Rule)
    (found : List Occurrence) :
    Finds host files options s rules r found ↔ (r, found) ∈ turns host files options s.index rules := by
  induction rules generalizing s with
  | nil => simp [Finds, turns]
  | cons first rules ih =>
    obtain ⟨u, one, rest, here⟩ := dispatch_cons_done h
    have goesOn (before : List Rule) :
        dispatch host files options s ((first :: before).map Rule.processor) =
          dispatch host files options u (before.map Rule.processor) := by
      rw [List.map_cons, ← List.singleton_append, dispatch_append_of_done one]
    -- a rule has its turn now, or in what is left to do
    have split : Finds host files options s (first :: rules) r found ↔
        (r = first ∧ ¬r.processor.Excluded files options ∧
          ∃ index, r.run host files s.index = .ok (index, found)) ∨
        Finds host files options u rules r found := by
      constructor
      · rintro ⟨before, later, eq, wanted, index, run⟩
        cases before with
        | nil =>
          cases eq
          exact .inl ⟨rfl, wanted, index, run⟩
        | cons b before =>
          cases eq
          rw [goesOn] at run
          exact .inr ⟨before, later, rfl, wanted, index, run⟩
      · rintro (⟨rfl, wanted, index, run⟩ | ⟨before, later, rfl, wanted, index, run⟩)
        · exact ⟨[], rules, rfl, wanted, index, run⟩
        · refine ⟨first :: before, later, rfl, wanted, index, ?_⟩
          rw [goesOn]
          exact run
    rw [split, ih rest]
    obtain ⟨excluded, -, eq⟩ | ⟨wanted, index, list, run, -, eq⟩ := here
    · rw [eq, or_iff_right]
      rintro ⟨rfl, wanted, -⟩
      exact wanted excluded
    · rw [eq, List.mem_cons, Prod.mk.injEq]
      refine or_congr_left ⟨?_, ?_⟩
      · rintro ⟨rfl, -, other, again⟩
        cases again.symm.trans run
        exact ⟨rfl, rfl⟩
      · rintro ⟨rfl, rfl⟩
        exact ⟨rfl, wanted, index, run⟩

end Turns

/-- What stands under one of several different keys. -/
theorem filter_key_eq_singleton {α : Type} {key : α → String} {items : List α}
    (distinct : (items.map key).Nodup) {item : α} (mem : item ∈ items) :
    items.filter (key · = key item) = [item] := by
  induction items with
  | nil => cases mem
  | cons first rest ih =>
    obtain ⟨other, distinct'⟩ := List.nodup_cons.1 distinct
    rcases List.mem_cons.1 mem with rfl | later
    · have none : rest.filter (key · = key item) = [] := by
        rw [List.filter_eq_nil_iff]
        intro x inRest same
        exact other (of_decide_eq_true same ▸ List.mem_map_of_mem inRest)
      rw [List.filter_cons_of_pos (by simp), none]
    · have apart : key first ≠ key item := fun same => other (same ▸ List.mem_map_of_mem later)
      rw [List.filter_cons_of_neg (by simpa using apart), ih distinct' later]

/-- The processors of a registry have identifiers, no two of them the same. -/
theorem Registry.build_ids (registry : Registry) (indexed : Bool) :
    ((registry.build indexed).1.map Processor.id).Nodup ∧
      ∀ p ∈ (registry.build indexed).1, p.id ≠ "" := by
  constructor
  · have increasing := List.pairwise_map.2 (@build_processors_increasing indexed registry)
    exact increasing.imp fun lt => ne_of_lt lt
  · intro p mem
    rw [build_eq] at mem
    obtain ⟨o, there, made⟩ := List.mem_filterMap.1 mem
    exact (BuildOutcome.eq_of_processor? (named_of_mem_outcomes there) made).2

/-- What the maker comes back with, if it is a processor at all, is one that counts what it finds and
reports just that. -/
def Registration.OfRule (reg : Registration) : Prop :=
  ∀ make indexed p, reg.make? = some make → make indexed = .processor p →
    ∃ r : Rule, r.processor = p

theorem Registration.OfRule.of_build {reg : Registration} (h : reg.OfRule) {indexed : Bool}
    {p : Processor} (built : reg.build indexed = .ok p) : ∃ r : Rule, r.processor = p := by
  simp only [build] at built
  split at built
  · cases built
  · split at built
    · cases built
    next make given =>
      split at built
      next made =>
        split at built
        · cases built
          exact h make indexed _ given made
        · cases built
      all_goals cases built

/-- If no maker comes back with anything but rules, all processors are those of rules. -/
theorem Registry.exists_rules {registry : Registry} (ofRules : ∀ reg ∈ registry, reg.OfRule)
    (indexed : Bool) : ∃ rules : List Rule, rules.map Rule.processor = (registry.build indexed).1 := by
  refine Set.mem_range.1 (Set.range_list_map Rule.processor ▸ fun p mem => ?_)
  rw [build_eq] at mem
  obtain ⟨o, there, made⟩ := List.mem_filterMap.1 mem
  obtain ⟨reg, among, earlier, -, rfl⟩ := exists_of_mem_outcomes there
  have built : reg.build indexed = .ok p := by
    simp only [BuildOutcome.processor?, Registration.outcome] at made
    split at made
    · cases made
    · cases built : reg.build indexed with
      | error e =>
        rw [built] at made
        cases made
      | ok q =>
        rw [built] at made
        cases made
        rfl
  exact (ofRules reg (List.mem_mergeSort.1 among)).of_build built

/-- What a dispatch counts and has in its report, for rules dispatched into a new one. -/
structure Tallied (host : Host) (files : Classification) (options : DispatchOptions)
    (start : DispatchState) (rules : List Rule) (after : DispatchState) : Prop where
  /-- Each rule that is run has its turn. -/
  turns : ∀ r ∈ rules, ¬r.processor.Excluded files options →
    ∃ found, Finds host files options start rules r found
  /-- What a rule finds stands under its identifier, and nothing else does. -/
  kept : ∀ r found, Finds host files options start rules r found → found ≠ [] →
    r.id ≠ Report.infoKey → after.report.findings.get? r.id = some (r.finding found)
  /-- All that is counted is in the report, unless a rule has the reserved key. -/
  counted : (∀ r found, Finds host files options start rules r found → r.id = Report.infoKey →
    found = []) → after.stats.found = after.report.occurrences.length
  lost : ∀ r found, Finds host files options start rules r found → r.id = Report.infoKey →
    after.stats.found = after.report.occurrences.length + found.length

section Tally

variable {turns : List (Rule × List Occurrence)}

/-- How much of what a rule found a report takes. -/
theorem length_taken (turn : Rule × List Occurrence) (named : turn.1.id ≠ "") :
    (((findingOfTurn turn).filter Finding.isReportable).flatMap Finding.normalized).length =
      if turn.1.id = Report.infoKey then 0 else turn.2.length := by
  obtain ⟨r, found⟩ := turn
  simp only [findingOfTurn]
  have reportable : (r.finding found).isReportable = true ↔ r.id ≠ Report.infoKey := by
    rw [Finding.isReportable_iff]
    exact and_iff_right named
  have length : (r.finding found).normalized.length = found.length := by
    simp [Finding.normalized, Finding.occurrences, Rule.finding]
  by_cases empty : found = []
  · simp [empty]
  · by_cases reserved : r.id = Report.infoKey
    · simp [empty, reportable, reserved]
    · simp [empty, reportable, reserved, length]

/-- A report has all that was found but what is under the reserved key. -/
theorem length_occurrences_turns (named : ∀ turn ∈ turns, turn.1.id ≠ "") (path : String)
    (generatedAt : Instant) :
    (turns.flatMap Prod.snd).length =
      ((Report.start path generatedAt).addAll (turns.flatMap findingOfTurn)).occurrences.length +
        ((turns.filter (·.1.id = Report.infoKey)).flatMap Prod.snd).length := by
  have taken := (Report.occurrences_addAll_perm (Report.start path generatedAt)
    (turns.flatMap findingOfTurn)).length_eq
  rw [Report.start_occurrences, List.nil_append] at taken
  rw [taken]
  clear taken
  induction turns with
  | nil => rfl
  | cons turn turns ih =>
    have later := ih fun t mem => named t (List.mem_cons_of_mem _ mem)
    have here := length_taken turn (named turn List.mem_cons_self)
    rw [List.flatMap_cons, List.flatMap_cons, List.filter_append, List.flatMap_append,
      List.length_append, List.length_append, here, later, List.filter_cons]
    by_cases reserved : turn.1.id = Report.infoKey
    · simp only [reserved, if_true, decide_true, List.flatMap_cons, List.length_append]
      omega
    · simp only [reserved, if_false, decide_false, Bool.false_eq_true]
      omega

theorem findingsOf_turns {id : String} (named : id ≠ "") (unreserved : id ≠ Report.infoKey) :
    Report.findingsOf (turns.flatMap findingOfTurn) id =
      (turns.filter (·.1.id = id)).flatMap findingOfTurn := by
  induction turns with
  | nil => rfl
  | cons turn turns ih =>
    rw [Report.findingsOf] at ih
    rw [Report.findingsOf, List.flatMap_cons, List.filter_append, ih, List.filter_cons]
    by_cases same : turn.1.id = id
    · have all : (findingOfTurn turn).filter (fun f => f.isReportable && f.ruleId = id) =
          findingOfTurn turn := by
        simp only [findingOfTurn]
        split
        · rfl
        · simp [Finding.isReportable, Rule.finding, same, named, unreserved]
      rw [all, if_pos (by simpa using same), List.flatMap_cons]
    · have none : (findingOfTurn turn).filter (fun f => f.isReportable && f.ruleId = id) = [] := by
        simp only [findingOfTurn]
        split
        · rfl
        · simp [Rule.finding, same]
      rw [none, if_neg (by simpa using same), List.nil_append]

/-- Of different rules each has its own finding, as it came. -/
theorem get?_addAll_turns (distinct : (turns.map (·.1.id)).Nodup) {r : Rule} {found : List Occurrence}
    (mem : (r, found) ∈ turns) (occurring : found ≠ []) (named : r.id ≠ "")
    (unreserved : r.id ≠ Report.infoKey) (path : String) (generatedAt : Instant) :
    ((Report.start path generatedAt).addAll (turns.flatMap findingOfTurn)).findings.get? r.id =
      some (r.finding found) := by
  have alone : turns.filter (·.1.id = r.id) = [(r, found)] := filter_key_eq_singleton distinct mem
  have single : findingOfTurn (r, found) = [r.finding found] := if_neg (by simpa using occurring)
  have settled := r.finding_occurrences_normalize found
  rw [← Finding.normalized, Finding.normalized_eq] at settled
  rw [Report.get?_addAll, findingsOf_turns named unreserved, alone, List.flatMap_singleton, single,
    Report.combined, List.flatMap_singleton, settled]
  rfl

end Tally

/-- **What a dispatch counts is in its report, but for what goes by the reserved key.** This holds for
any registrations whose makers come back with rules, or with no processor at all, and for any files. -/
theorem dispatch_tallied (given : List Registration) (ofRules : ∀ reg ∈ given, reg.OfRule)
    (indexed : Bool) (host : Host) (files : Classification) (options : DispatchOptions) (path : String)
    (generatedAt : Instant) (after : DispatchState)
    (done : dispatch host files options { report := .start path generatedAt }
      ((Registry.ofList given).build indexed).1 = (after, none)) :
    ∃ rules : List Rule, rules.map Rule.processor = ((Registry.ofList given).build indexed).1 ∧
      Tallied host files options { report := .start path generatedAt } rules after := by
  have ofRules' : ∀ reg ∈ Registry.ofList given, reg.OfRule := List.forall_mem_map.2 ofRules
  obtain ⟨rules, made⟩ := Registry.exists_rules ofRules' indexed
  refine ⟨rules, made, ?_⟩
  obtain ⟨distinctRules, namedRules⟩ := (Registry.ofList given).build_ids indexed
  rw [← made] at done distinctRules namedRules
  rw [List.map_map] at distinctRules
  rw [List.forall_mem_map] at namedRules
  obtain ⟨counted, report⟩ := dispatch_turns done
  have turnsOf := finds_iff_mem_turns done
  have ordered := @rules_turns_sublist host files options {} rules
  generalize turns host files options _ rules = turns at counted report turnsOf ordered
  rw [show ({ report := .start path generatedAt } : DispatchState).stats.found = 0 from rfl,
    Int.zero_add] at counted
  have distinct : (turns.map (·.1.id)).Nodup := by
    have ids := distinctRules.sublist (ordered.map (Processor.id ∘ Rule.processor))
    rwa [List.map_map] at ids
  have named (turn) (mem : turn ∈ turns) : turn.1.id ≠ "" :=
    namedRules _ (ordered.subset (List.mem_map_of_mem mem))
  have lengths := congrArg Int.ofNat (length_occurrences_turns named path generatedAt)
  rw [Int.ofNat_eq_natCast, ← counted, ← report, Int.ofNat_eq_natCast, Int.natCast_add] at lengths
  constructor
  case turns => exact fun r mem wanted => exists_finds done mem wanted
  case kept =>
    intro r found finds occurring unreserved
    have mem := (turnsOf r found).1 finds
    rw [report]
    exact get?_addAll_turns distinct mem occurring (named _ mem) unreserved path generatedAt
  case counted =>
    intro nothing
    have none : (turns.filter (·.1.id = Report.infoKey)).flatMap Prod.snd = [] := by
      rw [List.flatMap_eq_nil_iff]
      intro turn mem
      obtain ⟨inTurns, reserved⟩ := List.mem_filter.1 mem
      exact nothing turn.1 turn.2 ((turnsOf _ _).2 inTurns) (of_decide_eq_true reserved)
    rw [lengths, none, List.length_nil, Int.natCast_zero, Int.add_zero]
  case lost =>
    intro r found finds reserved
    have alone := filter_key_eq_singleton distinct ((turnsOf r found).1 finds)
    simp only [reserved] at alone
    rw [lengths, alone, List.flatMap_singleton]

/-- A rule that goes by the reserved key, registered with blanks around it. -/
def reservedRule : Rule := { findingRule with id := Report.infoKey }

def reservedRegistry : List Registration :=
  [.plain findingRule, ⟨" metadata ", some fun _ => .processor reservedRule.processor⟩]

theorem build_reservedRegistry :
    (Registry.ofList reservedRegistry).build true =
      ([findingRule.processor, reservedRule.processor], []) := by
  have sorted : (Registry.ofList reservedRegistry).sorted = Registry.ofList reservedRegistry := by
    apply List.mergeSort_of_pairwise
    have ids : ((Registry.ofList reservedRegistry).map Registration.id).Pairwise (· ≤ ·) := by decide
    simpa [List.pairwise_map] using ids
  rw [Registry.build, sorted]
  rfl

theorem reservedRegistry_ofRule : ∀ reg ∈ reservedRegistry, reg.OfRule := by
  simp only [reservedRegistry, List.forall_mem_cons, List.not_mem_nil, false_imp_iff, implies_true,
    and_true]
  constructor
  all_goals
    rintro make indexed p ⟨⟩ ⟨⟩
    exact ⟨_, rfl⟩

/-- Two occurrences are counted, and the report has one of them. -/
theorem dispatch_tallied_reservedRule :
    let files : Classification := Dict.ofList [("php", ["a.php"])]
    let start : DispatchState := { report := .start "/srv" .zero }
    let processors := ((Registry.ofList reservedRegistry).build true).1
    let after := dispatch bareHost files {} start processors
    (∀ reg ∈ reservedRegistry, reg.OfRule) ∧ after.2 = none ∧
    (∃ rules : List Rule, rules.map Rule.processor = processors ∧
      Tallied bareHost files {} start rules after.1) ∧
    after.1.stats.found = 2 ∧ after.1.report.occurrences.length = 1 := by
  intro files start processors after
  have built : processors = [findingRule.processor, reservedRule.processor] :=
    congrArg Prod.fst build_reservedRegistry
  have done : dispatch bareHost files {} start processors = (after.1, none) := by
    simp only [after, built]
    rfl
  have tallied := dispatch_tallied reservedRegistry reservedRegistry_ofRule true bareHost files {}
    "/srv" .zero after.1 done
  refine ⟨reservedRegistry_ofRule, congrArg Prod.snd done, tallied, ?_, ?_⟩
  · simp only [after, built]
    rfl
  · simp only [after, built]
    rfl

end ShopLint
