import ShopLint.Finding
import Mathlib.Data.List.Count

/-!
Counting severities: a count is how often a name occurs, so what a consumer puts in place of a missing
severity moves occurrences from one count to another and changes nothing else.
-/

namespace ShopLint

namespace Severity

/-- One of the three ranked names, or none given. -/
def IsKnown (s : Severity) : Prop := s = error ∨ s = warning ∨ s = note ∨ s = unset

instance (s : Severity) : Decidable s.IsKnown := inferInstanceAs (Decidable (_ ∨ _))

theorem orElse_unset (fallback : Severity) : unset.orElse fallback = fallback := if_pos rfl

theorem orElse_of_ne {s : Severity} (h : s ≠ unset) (fallback : Severity) : s.orElse fallback = s :=
  if_neg h

/-- Filling in missing severities adds to the count of the name filled in, and to no other. -/
theorem count_map_orElse (severities : List Severity) {s : Severity} (given : s ≠ unset)
    (fallback : Severity) :
    (severities.map (·.orElse fallback)).count s =
      severities.count s + if s = fallback then severities.count unset else 0 := by
  induction severities with
  | nil => simp
  | cons first rest ih =>
    rw [List.map_cons, List.count_cons, List.count_cons, List.count_cons, ih]
    by_cases missing : first = unset
    · subst missing
      rw [orElse_unset]
      by_cases filled : s = fallback
      · subst filled
        simp [Ne.symm given, Nat.add_assoc]
      · simp [Ne.symm given, Ne.symm filled, filled]
    · rw [orElse_of_ne missing]
      simp only [beq_iff_eq, missing, if_false, Nat.add_zero]
      omega

/-- Known severities are all counted under one of four names. -/
theorem length_of_known {severities : List Severity} (known : ∀ s ∈ severities, s.IsKnown) :
    severities.length = severities.count error + severities.count warning + severities.count note +
      severities.count unset := by
  induction severities with
  | nil => rfl
  | cons first rest ih =>
    have later := ih fun s mem => known s (List.mem_cons_of_mem _ mem)
    simp only [List.length_cons, List.count_cons, later]
    rcases known first List.mem_cons_self with rfl | rfl | rfl | rfl
    · simp [error, warning, note, unset]; omega
    · simp [error, warning, note, unset]; omega
    · simp [error, warning, note, unset]; omega
    · simp [error, warning, note, unset]; omega

end Severity

namespace SeverityCounts

@[ext] theorem ext {a b : SeverityCounts} (errors : a.errors = b.errors)
    (warnings : a.warnings = b.warnings) (notes : a.notes = b.notes) : a = b := by
  cases a; cases b; simp_all

@[simp] theorem add_errors (a b : SeverityCounts) : (a + b).errors = a.errors + b.errors := rfl

@[simp] theorem add_warnings (a b : SeverityCounts) : (a + b).warnings = a.warnings + b.warnings := rfl

@[simp] theorem add_notes (a b : SeverityCounts) : (a + b).notes = a.notes + b.notes := rfl

theorem zero_add (c : SeverityCounts) : ({} : SeverityCounts) + c = c := by
  ext
  · exact Nat.zero_add _
  · exact Nat.zero_add _
  · exact Nat.zero_add _

/-- One more severity adds to the count of its name. -/
theorem count_eq (c : SeverityCounts) (s : Severity) :
    c.count s = c + ⟨[s].count .error, [s].count .warning, [s].count .note⟩ := by
  simp only [count]
  split
  next isError => subst isError; rfl
  next notError =>
    split
    next isWarning => subst isWarning; rfl
    next notWarning =>
      split
      next isNote => subst isNote; rfl
      next notNote => ext <;> simp [notError, notWarning, notNote]

theorem foldl_count (c : SeverityCounts) (severities : List Severity) :
    severities.foldl count c =
      c + ⟨severities.count .error, severities.count .warning, severities.count .note⟩ := by
  induction severities generalizing c with
  | nil => rfl
  | cons s severities ih =>
    have split (name : Severity) :
        (s :: severities).count name = [s].count name + severities.count name := by
      show ([s] ++ severities).count name = _
      exact List.count_append
    rw [List.foldl_cons, ih, count_eq]
    ext
    · simp only [add_errors, split, Nat.add_assoc]
    · simp only [add_warnings, split, Nat.add_assoc]
    · simp only [add_notes, split, Nat.add_assoc]

/-- Each count is how often its name occurs. -/
theorem ofSeverities_eq (severities : List Severity) :
    ofSeverities severities =
      ⟨severities.count .error, severities.count .warning, severities.count .note⟩ := by
  rw [ofSeverities, foldl_count, zero_add]

theorem ofSeverities_append (a b : List Severity) :
    ofSeverities (a ++ b) = ofSeverities a + ofSeverities b := by
  ext <;> simp [ofSeverities_eq]

/-- The counts of several lists add up to those of all of them together. -/
theorem foldl_add_countBySeverity (c : SeverityCounts) (fallback : Severity) (findings : List Finding) :
    (findings.map fun f => countBySeverity f.occurrences fallback).foldl (· + ·) c =
      c + countBySeverity (findings.flatMap Finding.occurrences) fallback := by
  induction findings generalizing c with
  | nil => rfl
  | cons f findings ih =>
    rw [List.map_cons, List.foldl_cons, ih]
    simp only [countBySeverity, List.flatMap_cons, List.map_append, ofSeverities_append]
    ext
    · exact Nat.add_assoc ..
    · exact Nat.add_assoc ..
    · exact Nat.add_assoc ..

end SeverityCounts

/-- A count is how often its name was given, and how often none was if it is the one filled in. -/
theorem countBySeverity_eq (occurrences : List Occurrence) (fallback : Severity) :
    countBySeverity occurrences fallback =
      let given := occurrences.map Occurrence.severity
      let filled (s : Severity) := given.count s + if s = fallback then given.count .unset else 0
      ⟨filled .error, filled .warning, filled .note⟩ := by
  have mapped : (occurrences.map fun o => o.severity.orElse fallback) =
      (occurrences.map Occurrence.severity).map (·.orElse fallback) := by simp
  rw [countBySeverity, mapped, SeverityCounts.ofSeverities_eq,
    Severity.count_map_orElse _ (by decide), Severity.count_map_orElse _ (by decide),
    Severity.count_map_orElse _ (by decide)]

end ShopLint
