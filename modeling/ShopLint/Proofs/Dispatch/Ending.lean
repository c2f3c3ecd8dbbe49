import ShopLint.Dispatch
import Mathlib.Data.List.Basic
import Mathlib.Data.List.Induction

/-!
How a dispatch ends. If no processor that is run fails, each has been run or skipped. The first that
fails ends it: what is left is what dispatching those before it leaves.
-/

namespace ShopLint

/-- The processor is not wanted, or there are no files of its type. -/
def Processor.Excluded (p : Processor) (files : Classification) (options : DispatchOptions) : Prop :=
  (options.fixableOnly = true ∧ p.id ∉ options.fixable) ∨
    files.get? p.target = none ∨ files.get? p.target = some []

instance (p : Processor) (files : Classification) (options : DispatchOptions) :
    Decidable (p.Excluded files options) :=
  inferInstanceAs (Decidable (_ ∨ _ ∨ _))

theorem Classification.has_eq_false_iff (files : Classification) (fileType : String) :
    files.has fileType = false ↔ files.get? fileType = none ∨ files.get? fileType = some [] := by
  simp only [has, Classification.files, Bool.not_eq_false', List.isEmpty_iff]
  cases files.get? fileType <;> simp

theorem Processor.isSkipped_eq (p : Processor) (files : Classification) (options : DispatchOptions) :
    p.isSkipped files options = decide (p.Excluded files options) := by
  rw [Bool.eq_iff_iff, decide_eq_true_eq, Excluded, ← files.has_eq_false_iff]
  simp only [isSkipped, Bool.or_eq_true, Bool.and_eq_true, decide_eq_true_eq, Bool.not_eq_true']

/-- The identifiers of the processors in a list, divided into those run and those skipped. -/
structure DispatchStats.Covers (stats : DispatchStats) (files : Classification)
    (options : DispatchOptions) (processors : List Processor) : Prop where
  ran : stats.ran = (processors.filter fun p => ¬p.Excluded files options).map Processor.id
  skipped : stats.skipped = (processors.filter fun p => p.Excluded files options).map Processor.id
  ranOrdered : stats.ran.Sublist (processors.map Processor.id)
  skippedOrdered : stats.skipped.Sublist (processors.map Processor.id)
  partition : (stats.skipped ++ stats.ran).Perm (processors.map Processor.id)

section Dispatch

variable (host : Host) (files : Classification) (options : DispatchOptions)

/-- The processor is run after the given ones, and fails. -/
def FailsAfter (start : DispatchState) (before : List Processor) (p : Processor) (cause : RuleFailure) :
    Prop :=
  ¬p.Excluded files options ∧
    p.process host files (dispatch host files options start before).1.index = .error cause

/-- No processor of the list fails when it is its turn. -/
def NoneFails (start : DispatchState) (processors : List Processor) : Prop :=
  ∀ before p later cause, processors = before ++ p :: later →
    ¬FailsAfter host files options start before p cause

variable {host files options}

/-- What dispatching one processor can do. -/
theorem dispatch_singleton (s : DispatchState) (p : Processor) :
    (p.Excluded files options ∧ dispatch host files options s [p] = (s.skip p.id, none)) ∨
    ¬p.Excluded files options ∧
      ((∃ done, p.process host files s.index = .ok done ∧
        dispatch host files options s [p] = (s.merge p.id done, none)) ∨
      ∃ cause, p.process host files s.index = .error cause ∧
        dispatch host files options s [p] = (s, some ⟨p.id, cause⟩)) := by
  simp only [dispatch, p.isSkipped_eq files options, decide_eq_true_eq]
  by_cases excluded : p.Excluded files options
  · rw [if_pos excluded]
    exact .inl ⟨excluded, rfl⟩
  · rw [if_neg excluded]
    refine .inr ⟨excluded, ?_⟩
    cases run : p.process host files s.index with
    | ok done => exact .inl ⟨done, rfl, rfl⟩
    | error cause => exact .inr ⟨cause, rfl, rfl⟩

/-- A dispatch goes on with further processors only if it has not failed. -/
theorem dispatch_append (s : DispatchState) (before later : List Processor) :
    dispatch host files options s (before ++ later) =
      match dispatch host files options s before with
      | (t, none) => dispatch host files options t later
      | (t, some failure) => (t, some failure) := by
  induction before generalizing s with
  | nil => rfl
  | cons p before ih =>
    rw [List.cons_append, dispatch, dispatch]
    split
    · exact ih _
    · split
      · rfl
      · exact ih _

theorem dispatch_append_of_done {s t : DispatchState} {before : List Processor}
    (done : dispatch host files options s before = (t, none)) (later : List Processor) :
    dispatch host files options s (before ++ later) = dispatch host files options t later := by
  rw [dispatch_append, done]

/-- The processors before others have been dispatched without a failure if all have. -/
theorem exists_done_of_append {s t : DispatchState} {before later : List Processor}
    (h : dispatch host files options s (before ++ later) = (t, none)) :
    ∃ u, dispatch host files options s before = (u, none) ∧
      dispatch host files options u later = (t, none) := by
  rw [dispatch_append] at h
  split at h
  next u done => exact ⟨u, done, h⟩
  next => simp at h

/-- A processor that fails ends the dispatch with the state before it, whatever follows. -/
theorem dispatch_of_fails {s t : DispatchState} {before : List Processor}
    (done : dispatch host files options s before = (t, none)) {p : Processor} {cause : RuleFailure}
    (fails : FailsAfter host files options s before p cause) (later : List Processor) :
    dispatch host files options s (before ++ p :: later) = (t, some ⟨p.id, cause⟩) := by
  obtain ⟨wanted, run⟩ := fails
  rw [done] at run
  rw [dispatch_append_of_done done]
  simp only [dispatch, p.isSkipped_eq files options, decide_eq_true_eq, if_neg wanted, run]

theorem NoneFails.of_append {s : DispatchState} {before later : List Processor}
    (h : NoneFails host files options s (before ++ later)) : NoneFails host files options s before := by
  rintro first p rest cause rfl
  exact h first p (rest ++ later) cause (by simp)

/-- Without a processor that fails the dispatch comes to its end. -/
theorem NoneFails.done {s : DispatchState} {processors : List Processor}
    (h : NoneFails host files options s processors) :
    ∃ t, dispatch host files options s processors = (t, none) := by
  induction processors using List.reverseRecOn with
  | nil => exact ⟨s, rfl⟩
  | append_singleton processors p ih =>
    obtain ⟨t, done⟩ := ih h.of_append
    rw [dispatch_append_of_done done]
    rcases dispatch_singleton t p with ⟨_, skip⟩ | ⟨wanted, ⟨_, _, ok⟩ | ⟨cause, run, _⟩⟩
    · exact ⟨_, skip⟩
    · exact ⟨_, ok⟩
    · have fails : FailsAfter host files options s processors p cause := by
        refine ⟨wanted, ?_⟩
        rw [done]
        exact run
      exact absurd fails (h processors p [] cause rfl)

/-- What a dispatch that comes to its end notes about the processors. -/
theorem stats_dispatch {s t : DispatchState} {processors : List Processor}
    (h : dispatch host files options s processors = (t, none)) :
    t.stats.ran =
      s.stats.ran ++ (processors.filter fun p => ¬p.Excluded files options).map Processor.id ∧
    t.stats.skipped =
      s.stats.skipped ++ (processors.filter fun p => p.Excluded files options).map Processor.id := by
  induction processors using List.reverseRecOn generalizing t with
  | nil =>
    cases h
    simp
  | append_singleton processors p ih =>
    obtain ⟨u, before, last⟩ := exists_done_of_append h
    obtain ⟨ran, skipped⟩ := ih before
    rw [List.filter_append, List.filter_append, List.map_append, List.map_append,
      ← List.append_assoc, ← List.append_assoc, ← ran, ← skipped]
    rcases dispatch_singleton u p with ⟨excluded, skip⟩ | ⟨wanted, ⟨_, _, ok⟩ | ⟨_, _, failed⟩⟩
    · cases skip.symm.trans last
      simp [excluded, DispatchState.skip]
    · cases ok.symm.trans last
      simp [wanted, DispatchState.merge]
    · cases failed.symm.trans last

theorem covers_of_done {start t : DispatchState} {processors : List Processor}
    (fresh : start.stats = {}) (h : dispatch host files options start processors = (t, none)) :
    t.stats.Covers files options processors := by
  obtain ⟨ran, skipped⟩ := stats_dispatch h
  rw [fresh, List.nil_append] at ran skipped
  constructor
  case ran => exact ran
  case skipped => exact skipped
  case ranOrdered =>
    rw [ran]
    exact List.filter_sublist.map Processor.id
  case skippedOrdered =>
    rw [skipped]
    exact List.filter_sublist.map Processor.id
  case partition =>
    rw [ran, skipped, ← List.map_append]
    have parts := List.filter_append_perm (fun p => decide (p.Excluded files options)) processors
    simpa using parts.map Processor.id

end Dispatch

/-- **A dispatch is complete, or exact up to the processor that fails.** If no processor fails in its
turn, the dispatch comes to its end and notes each processor as run or skipped, skipping those that are
not wanted or without files. If the processor after some others is the first to fail, statistics and
report are those of dispatching these others, what follows it does not matter, and the failure names
it. -/
theorem dispatch_complete_or_exact (host : Host) (files : Classification) (options : DispatchOptions)
    (report : Report) (index : ClassIndex) (processors : List Processor) :
    let start : DispatchState := { report := report, index := index }
    let after := dispatch host files options start processors
    (NoneFails host files options start processors →
      after.2 = none ∧ after.1.stats.Covers files options processors) ∧
    ∀ before p later cause, processors = before ++ p :: later →
      NoneFails host files options start before →
      FailsAfter host files options start before p cause →
        let earlier := dispatch host files options start before
        earlier.2 = none ∧ earlier.1.stats.Covers files options before ∧
        after.1.stats = earlier.1.stats ∧ after.1.report = earlier.1.report ∧
        (∀ instead, dispatch host files options start (before ++ p :: instead) = after) ∧
        ∃ failure, after.2 = some failure ∧ failure.id = p.id ∧
          failure.message = "processor " ++ p.id ++ " failed: " ++ cause.message := by
  intro start after
  constructor
  · intro unfailing
    obtain ⟨t, done⟩ := unfailing.done
    have eq : after = (t, none) := done
    rw [eq]
    exact ⟨rfl, covers_of_done rfl done⟩
  · rintro before p later cause rfl unfailing fails earlier
    obtain ⟨t, done⟩ := unfailing.done
    have fromHere := dispatch_of_fails done fails
    have eq : after = (t, some ⟨p.id, cause⟩) := fromHere later
    have eqEarlier : earlier = (t, none) := done
    rw [eq, eqEarlier]
    exact ⟨rfl, covers_of_done rfl done, rfl, rfl, fromHere, _, rfl, rfl, rfl⟩

/-- A rule that finds one thing, one without files, and one that fails. -/
def findingRule : Rule where
  id := "finding"
  target := FileType.php
  run := Rule.simple fun _ _ => [{ file := "a.php", startLine := 1 }]

def idleRule : Rule where
  id := "idle"
  target := FileType.js
  run := Rule.simple fun _ _ => []

def brokenRule : Rule where
  id := "broken"
  target := FileType.php
  run := fun _ _ _ => .error ⟨"no boundary"⟩

theorem dispatch_complete_or_exact_brokenRule :
    let host : Host := { tree := .dir [], cwd := "/", env := {} }
    let files : Classification := Dict.ofList [("js", []), ("php", ["a.php"])]
    FailsAfter host files {} { report := {} } [findingRule.processor, idleRule.processor]
      brokenRule.processor ⟨"no boundary"⟩ ∧
    let after := dispatch host files {} { report := {} }
      [findingRule.processor, idleRule.processor, brokenRule.processor, findingRule.processor]
    after.1.stats.ran = ["finding"] ∧ after.1.stats.skipped = ["idle"] ∧
    ∃ failure, after.2 = some failure ∧ failure.message = "processor broken failed: no boundary" := by
  intro host files
  have fails : FailsAfter host files {} { report := {} } [findingRule.processor, idleRule.processor]
      brokenRule.processor ⟨"no boundary"⟩ := ⟨by decide, rfl⟩
  have unfailing : NoneFails host files {} { report := {} }
      [findingRule.processor, idleRule.processor] := by
    rintro before p later cause split ⟨_, failed⟩
    have mem : p ∈ [findingRule.processor, idleRule.processor] := by
      rw [split]
      exact List.mem_append_right _ List.mem_cons_self
    simp only [List.mem_cons, List.not_mem_nil, or_false] at mem
    rcases mem with rfl | rfl
    all_goals simp [Rule.processor, findingRule, idleRule, Rule.simple, Except.map] at failed
  obtain ⟨_, covers, stats, _, _, failure, stopped, _, message⟩ :=
    (dispatch_complete_or_exact host files {} {} {} _).2 [findingRule.processor, idleRule.processor]
      brokenRule.processor [findingRule.processor] ⟨"no boundary"⟩ rfl unfailing fails
  exact ⟨fails, (congrArg DispatchStats.ran stats).trans covers.ran,
    (congrArg DispatchStats.skipped stats).trans covers.skipped, failure, stopped, message⟩

end ShopLint
