import ShopLint.Proofs.Collection
import ShopLint.Proofs.Completion
import ShopLint.Proofs.Relocation.Rules
import ShopLint.Proofs.Report.Merging

/-!
From corresponding candidates to corresponding reports: files that correspond get the same type, so
the same rules run, and what they find is merged in the same order.
-/

namespace ShopLint

variable {host₁ host₂ : Host} {R : String → String → Prop}

/-! Classifications -/

theorem Selection.emptyClassification_moved (s : Selection) :
    s.emptyClassification.Moved R s.emptyClassification := by
  refine List.forall₂_same.2 fun e mem => ⟨rfl, ?_⟩
  have none := s.files_emptyClassification e.1
  rw [Classification.files, (Dict.mem_entries_iff _ e.1 e.2).1 mem, Option.getD_some] at none
  rw [none]
  exact .nil

theorem Classification.Moved.push {a b : Classification} (h : a.Moved R b) (fileType : String)
    {p q : String} (pq : R p q) : (a.push fileType p).Moved R (b.push fileType q) := by
  refine Dict.Rel.alter h fileType (.cons pq .nil) fun _ _ known => ?_
  exact List.rel_append known (.cons pq .nil)

/-- Candidates that correspond and are of the same type are classified alike. -/
theorem Selection.classify_moved {s s' : Selection} (extensions : s.extensions = s'.extensions)
    {ps qs : List String} (paths : List.Forall₂ R ps qs)
    (typed : ∀ {p q}, R p q → s.typeOf? p = s'.typeOf? q) :
    (s.classify ps).Moved R (s'.classify qs) := by
  have start : s.emptyClassification.Moved R s'.emptyClassification := by
    obtain ⟨_, exts, _⟩ := s
    obtain ⟨_, exts', _⟩ := s'
    cases extensions
    exact emptyClassification_moved _
  rw [classify_eq_foldl, classify_eq_foldl]
  generalize s.emptyClassification = a, s'.emptyClassification = b at start
  induction paths generalizing a b with
  | nil => exact start
  | cons pq _ ih =>
    refine ih _ _ ?_
    simp only [place, typed pq]
    split
    · exact start.push _ pq
    · exact start

theorem Classification.Moved.runnable {a b : Classification} (h : a.Moved R b)
    (options : DispatchOptions) : ShopLint.runnable a options = ShopLint.runnable b options := by
  simp only [ShopLint.runnable, Processor.isSkipped, Rule.processor, h.has]

/-! Reports -/

theorem Occurrence.Moved.normalize {a b : Occurrence} (h : a.Moved R b) :
    a.normalize.Moved R b.normalize := by
  simp only [Occurrence.normalize, h.startLine, h.endLine]
  split
  · exact ⟨h.file, rfl, rfl, h.severity, h.message⟩
  · exact h

/-- Findings of one rule with corresponding occurrences. -/
structure Finding.Moved (R : String → String → Prop) (f g : Finding) : Prop where
  ruleId : f.ruleId = g.ruleId
  occurrences : List.Forall₂ (Occurrence.Moved R) f.occurrences g.occurrences

def Report.Moved (R : String → String → Prop) (a b : Report) : Prop :=
  Dict.Rel (Finding.Moved R) a.findings b.findings

theorem Report.Moved.add {a b : Report} (h : a.Moved R b) {f g : Finding} (fg : f.Moved R g) :
    (a.add f).Moved R (b.add g) := by
  have more : List.Forall₂ (Occurrence.Moved R) (f.occurrences.map Occurrence.normalize)
      (g.occurrences.map Occurrence.normalize) :=
    List.rel_map (fun _ _ moved => moved.normalize) fg.occurrences
  simp only [Report.add, fg.ruleId]
  split
  · exact h
  · refine Dict.Rel.alter h _ ⟨rfl, more⟩ fun first second known => ⟨known.ruleId, ?_⟩
    simp only [occurrences_extend]
    exact List.rel_append known.occurrences more

theorem Report.Moved.record {a b : Report} (h : a.Moved R b) (r : Rule) {as bs : List Occurrence}
    (found : List.Forall₂ (Occurrence.Moved R) as bs) : (a.record r as).Moved R (b.record r bs) := by
  have empty : as.isEmpty = bs.isEmpty := by
    cases found with
    | nil => rfl
    | cons _ _ => rfl
  simp only [Report.record, empty]
  split
  · exact h
  · exact h.add ⟨rfl, List.rel_map (fun _ _ moved => moved.normalize) found⟩

theorem Report.Moved.gather {a b : Report} (h : a.Moved R b) {as bs : Rule → List Occurrence}
    {rules : List Rule} (found : ∀ r ∈ rules, List.Forall₂ (Occurrence.Moved R) (as r) (bs r)) :
    (a.gather as rules).Moved R (b.gather bs rules) := by
  induction rules generalizing a b with
  | nil => exact h
  | cons r rules ih =>
    exact ih (h.record r (found r List.mem_cons_self))
      fun q mem => found q (List.mem_cons_of_mem _ mem)

/-- Two scans of corresponding candidates report the same, in whatever orders imports are gone through,
when the source files are settled. -/
theorem ScanContext.scanSelection_moved {c : ScanContext} (bundled : c.registry = .default)
    (relocates : Relocates (host₁.reordered fun _ => .sorted) (host₂.reordered fun _ => .sorted) R)
    {s s' : Selection} (fixableOnly : s.fixableOnly = s'.fixableOnly)
    (files : (collect host₁ s).classification.Moved R (collect host₂ s').classification)
    (settled : ∀ path ∈ (collect host₁ s).classification.files FileType.php, host₁.Settled path) :
    (c.scanSelection host₁ s).report.Moved R (c.scanSelection host₂ s').report := by
  have settled' : ∀ path ∈ (collect host₂ s').classification.files FileType.php,
      host₂.Settled path := by
    intro q mem
    obtain ⟨p, collected, pq⟩ := forall₂_partner (files.files FileType.php).flip mem
    have same : host₁.readOrEmpty p = host₂.readOrEmpty q := relocates.readOrEmpty pq
    rw [Host.Settled, ← same]
    exact settled p collected
  have options : c.dispatchOptions s = c.dispatchOptions s' := by
    simp only [dispatchOptions, fixableOnly]
  rw [(scanSelection_bundled bundled host₁ s).2, (scanSelection_bundled bundled host₂ s').2, options,
    files.runnable]
  have start : (c.emptyReport host₁ s.root).Moved R (c.emptyReport host₂ s'.root) := Dict.Rel.empty _
  refine start.gather fun r mem => ?_
  have inBundle := (mem_runnable.1 mem).1
  have moved := Registry.bundled_moved relocates files r inBundle
  rwa [Registry.bundled_reordered _ settled r inBundle,
    Registry.bundled_reordered _ settled' r inBundle] at moved

end ShopLint
