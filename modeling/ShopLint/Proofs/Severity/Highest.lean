import ShopLint.Proofs.Severity

/-!
The most severe of some severities. Counting them by name and taking the first name that was counted,
or keeping the most severe one seen so far: both give the one known name of the highest rank. So
neither the order of the severities matters nor how they are divided before they are counted.
-/

namespace ShopLint

namespace Severity

/-- A known name of the highest rank among the severities, which is none given when no other is there. -/
structure IsTop (severities : List Severity) (top : Severity) : Prop where
  known : top.IsKnown
  rank_le : ∀ s ∈ severities, s.rank ≤ top.rank
  unset_or_mem : top = unset ∨ top ∈ severities

theorem rank_cases (s : Severity) :
    (s = error ∧ s.rank = 3) ∨ (s = warning ∧ s.rank = 2) ∨ (s = note ∧ s.rank = 1) ∨ s.rank = 0 := by
  by_cases isError : s = error
  · exact .inl ⟨isError, isError ▸ rfl⟩
  by_cases isWarning : s = warning
  · exact .inr (.inl ⟨isWarning, isWarning ▸ rfl⟩)
  by_cases isNote : s = note
  · exact .inr (.inr (.inl ⟨isNote, isNote ▸ rfl⟩))
  exact .inr (.inr (.inr (by simp [rank, isError, isWarning, isNote])))

theorem known_of_rank_pos {s : Severity} (h : 0 < s.rank) : s.IsKnown := by
  rcases rank_cases s with ⟨isError, _⟩ | ⟨isWarning, _⟩ | ⟨isNote, _⟩ | unranked
  · exact .inl isError
  · exact .inr (.inl isWarning)
  · exact .inr (.inr (.inl isNote))
  · exact absurd unranked (Nat.ne_of_gt h)

/-- Known severities are told apart by their ranks. -/
theorem eq_of_rank_eq {s t : Severity} (known : s.IsKnown) (known' : t.IsKnown) (h : s.rank = t.rank) :
    s = t := by
  revert h
  rcases known with rfl | rfl | rfl | rfl <;> rcases known' with rfl | rfl | rfl | rfl <;> decide

namespace IsTop

variable {severities others : List Severity} {top other s : Severity}

theorem nil : IsTop [] unset where
  known := .inr (.inr (.inr rfl))
  rank_le := by simp
  unset_or_mem := .inl rfl

theorem rank_le_rank (h : IsTop severities top) (h' : IsTop severities other) : top.rank ≤ other.rank := by
  rcases h.unset_or_mem with rfl | mem
  · exact Nat.zero_le _
  · exact h'.rank_le top mem

theorem unique (h : IsTop severities top) (h' : IsTop severities other) : top = other :=
  eq_of_rank_eq h.known h'.known (Nat.le_antisymm (h.rank_le_rank h') (h'.rank_le_rank h))

/-- Only which severities there are matters. -/
theorem congr (h : IsTop severities top) (same : ∀ s, s ∈ others ↔ s ∈ severities) : IsTop others top :=
  ⟨h.known, fun s mem => h.rank_le s ((same s).1 mem), h.unset_or_mem.imp_right (same top).2⟩

/-- The highest rank is that of some severity. -/
theorem exists_rank_eq (h : IsTop severities top) (nonempty : severities ≠ []) :
    ∃ s ∈ severities, s.rank = top.rank := by
  rcases h.unset_or_mem with rfl | mem
  · obtain ⟨s, mem⟩ := List.exists_mem_of_ne_nil severities nonempty
    exact ⟨s, mem, Nat.le_zero.1 (h.rank_le s mem)⟩
  · exact ⟨top, mem, rfl⟩

/-- One more severity takes the top place just if its rank is higher. -/
theorem step (h : IsTop severities top) (s : Severity) :
    IsTop (severities ++ [s]) (if top.rank < s.rank then s else top) := by
  split
  next higher =>
    refine ⟨known_of_rank_pos (Nat.zero_lt_of_lt higher), fun t mem => ?_, .inr (by simp)⟩
    rcases List.mem_append.1 mem with seen | last
    · exact Nat.le_of_lt (Nat.lt_of_le_of_lt (h.rank_le t seen) higher)
    · exact Nat.le_of_eq (by rw [List.mem_singleton.1 last])
  next lower =>
    refine ⟨h.known, fun t mem => ?_, h.unset_or_mem.imp_right (List.mem_append_left _)⟩
    rcases List.mem_append.1 mem with seen | last
    · exact h.rank_le t seen
    · rw [List.mem_singleton.1 last]
      exact Nat.le_of_not_lt lower

theorem foldl (h : IsTop severities top) (rest : List Severity) :
    IsTop (severities ++ rest) (rest.foldl (fun top s => if top.rank < s.rank then s else top) top) := by
  induction rest generalizing severities top with
  | nil => simpa using h
  | cons s rest ih =>
    rw [List.append_cons]
    exact ih (h.step s)

/-- The tops of two parts have the top of the whole between them. -/
theorem append (h : IsTop severities s) (h' : IsTop others other) (both : IsTop [s, other] top) :
    IsTop (severities ++ others) top := by
  refine ⟨both.known, fun t mem => ?_, ?_⟩
  · rcases List.mem_append.1 mem with left | right
    · exact Nat.le_trans (h.rank_le t left) (both.rank_le s (by simp))
    · exact Nat.le_trans (h'.rank_le t right) (both.rank_le other (by simp))
  · rcases both.unset_or_mem with isUnset | mem
    · exact .inl isUnset
    · simp only [List.mem_cons, List.not_mem_nil, or_false] at mem
      rcases mem with rfl | rfl
      · exact h.unset_or_mem.imp_right (List.mem_append_left _)
      · exact h'.unset_or_mem.imp_right (List.mem_append_right _)

end IsTop

theorem isTop_highest (severities : List Severity) : IsTop severities (highest severities) :=
  IsTop.nil.foldl severities

end Severity

namespace SeverityCounts

open Severity

/-- The first name that was counted is the top. -/
theorem isTop_highest (severities : List Severity) : IsTop severities (ofSeverities severities).highest := by
  rw [ofSeverities_eq, highest]
  simp only [List.count_pos_iff]
  -- a severity that is there has a name that was counted, or no rank
  have ranked (s : Severity) (mem : s ∈ severities) :
      (error ∈ severities ∧ s.rank = 3) ∨ (warning ∈ severities ∧ s.rank = 2) ∨
        (note ∈ severities ∧ s.rank = 1) ∨ s.rank = 0 := by
    rcases rank_cases s with ⟨rfl, rank⟩ | ⟨rfl, rank⟩ | ⟨rfl, rank⟩ | unranked
    · exact .inl ⟨mem, rank⟩
    · exact .inr (.inl ⟨mem, rank⟩)
    · exact .inr (.inr (.inl ⟨mem, rank⟩))
    · exact .inr (.inr (.inr unranked))
  split
  next errors =>
    refine ⟨.inl rfl, fun s mem => ?_, .inr errors⟩
    show s.rank ≤ 3
    rcases ranked s mem with ⟨_, rank⟩ | ⟨_, rank⟩ | ⟨_, rank⟩ | rank <;> omega
  next noErrors =>
    simp only [noErrors, false_and, false_or] at ranked
    split
    next warnings =>
      refine ⟨.inr (.inl rfl), fun s mem => ?_, .inr warnings⟩
      show s.rank ≤ 2
      rcases ranked s mem with ⟨_, rank⟩ | ⟨_, rank⟩ | rank <;> omega
    next noWarnings =>
      simp only [noWarnings, false_and, false_or] at ranked
      split
      next notes =>
        refine ⟨.inr (.inr (.inl rfl)), fun s mem => ?_, .inr notes⟩
        show s.rank ≤ 1
        rcases ranked s mem with ⟨_, rank⟩ | rank <;> omega
      next noNotes =>
        simp only [noNotes, false_and, false_or] at ranked
        exact ⟨.inr (.inr (.inr rfl)), fun s mem => Nat.le_of_eq (ranked s mem), .inl rfl⟩

end SeverityCounts

theorem countBySeverity_append (os ps : List Occurrence) (fallback : Severity) :
    countBySeverity (os ++ ps) fallback = countBySeverity os fallback + countBySeverity ps fallback := by
  rw [countBySeverity, List.map_append, SeverityCounts.ofSeverities_append, countBySeverity, countBySeverity]

/-- **The most severe of some occurrences.** Counted by name or compared one after another, the result is the
same known severity, of the highest rank that any of them has once missing severities are filled in. Another
order does not change it, nor does counting or comparing the occurrences in two parts. -/
theorem countBySeverity_highest_agrees (occurrences : List Occurrence) (fallback : Severity) :
    let filled (os : List Occurrence) := os.map fun o => o.severity.orElse fallback
    let top := Severity.highest (filled occurrences)
    (countBySeverity occurrences fallback).highest = top ∧
    (top = .error ∨ top = .warning ∨ top = .note ∨ top = .unset) ∧
    (∀ s ∈ filled occurrences, s.rank ≤ top.rank) ∧
    (occurrences = [] → top = .unset) ∧
    (occurrences ≠ [] → ∃ s ∈ filled occurrences, s.rank = top.rank) ∧
    (∀ others, others.Perm occurrences →
      (countBySeverity others fallback).highest = top ∧ Severity.highest (filled others) = top) ∧
    ∀ part rest, (part ++ rest).Perm occurrences →
      (countBySeverity part fallback + countBySeverity rest fallback).highest = top ∧
      Severity.highest [Severity.highest (filled part), Severity.highest (filled rest)] = top := by
  intro filled top
  have isTop : Severity.IsTop (filled occurrences) top := Severity.isTop_highest _
  have counted (os : List Occurrence) : Severity.IsTop (filled os) (countBySeverity os fallback).highest :=
    SeverityCounts.isTop_highest (filled os)
  have reordered {os : List Occurrence} (perm : os.Perm occurrences) : Severity.IsTop (filled os) top :=
    isTop.congr fun s => (perm.map _).mem_iff
  refine ⟨(counted occurrences).unique isTop, isTop.known, isTop.rank_le, ?_, ?_, ?_, ?_⟩
  · rintro rfl
    rfl
  · intro nonempty
    exact isTop.exists_rank_eq (by simpa [filled] using nonempty)
  · intro others perm
    exact ⟨(counted others).unique (reordered perm), (Severity.isTop_highest _).unique (reordered perm)⟩
  · intro part rest perm
    have whole := reordered perm
    constructor
    · rw [← countBySeverity_append]
      exact (counted (part ++ rest)).unique whole
    · have parts := (Severity.isTop_highest (filled part)).append (Severity.isTop_highest (filled rest))
        (Severity.isTop_highest _)
      rw [← List.map_append] at parts
      exact parts.unique whole

end ShopLint
