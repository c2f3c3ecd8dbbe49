import ShopLint.Registry
import ShopLint.Proofs.Text.Order

/-!
How a registry accounts for what was registered. In the order of registration, each comes to a processor or
to a reason why there is none, and only the first of an identifier is made. What is built are just these
outcomes, sorted by identifier: building goes through the registrations in that order, and sorting
keeps those of one identifier as they came.
-/

namespace ShopLint

/-- What a registration comes to after those of the given identifiers. -/
def Registration.outcome (reg : Registration) (indexed : Bool) (earlier : List String) :
    Except BuildError Processor :=
  if reg.id ∈ earlier then .error .duplicate else reg.build indexed

theorem Registration.outcome_congr (reg : Registration) (indexed : Bool) {earlier others : List String}
    (h : reg.id ∈ earlier ↔ reg.id ∈ others) :
    reg.outcome indexed earlier = reg.outcome indexed others := by
  simp only [outcome, h]

/-- A processor that is made goes by the registered identifier, which is not empty. -/
theorem Registration.id_of_build {reg : Registration} {indexed : Bool} {p : Processor}
    (h : reg.build indexed = .ok p) : p.id = reg.id ∧ reg.id ≠ "" := by
  simp only [build] at h
  split at h
  · simp at h
  next named =>
    refine ⟨?_, named⟩
    split at h
    · simp at h
    · split at h
      · split at h
        next same =>
          cases h
          exact same
        next => simp at h
      all_goals simp at h

theorem Registration.id_of_outcome {reg : Registration} {indexed : Bool} {earlier : List String}
    {p : Processor} (h : reg.outcome indexed earlier = .ok p) : p.id = reg.id ∧ reg.id ≠ "" := by
  simp only [outcome] at h
  split at h
  · simp at h
  · exact id_of_build h

/-- What one registration comes to, under its identifier. -/
structure BuildOutcome where
  id : String
  result : Except BuildError Processor

namespace BuildOutcome

def ofProcessor (p : Processor) : BuildOutcome := ⟨p.id, .ok p⟩

def ofDiagnostic (d : Diagnostic) : BuildOutcome := ⟨d.id, .error d.error⟩

def processor? (o : BuildOutcome) : Option Processor := o.result.toOption

def diagnostic? (o : BuildOutcome) : Option Diagnostic :=
  match o.result with
  | .ok _ => none
  | .error e => some ⟨o.id, e⟩

/-- A processor stands under its own identifier, and that is not empty. -/
def Named (o : BuildOutcome) : Prop := ∀ p, o.result = .ok p → p.id = o.id ∧ o.id ≠ ""

theorem eq_of_processor? {o : BuildOutcome} (named : o.Named) {p : Processor} (h : o.processor? = some p) :
    o = ofProcessor p ∧ p.id ≠ "" := by
  obtain ⟨name, result⟩ := o
  cases result with
  | error e => simp [processor?, Except.toOption] at h
  | ok s =>
    obtain ⟨rfl, nonempty⟩ := named s rfl
    cases h
    exact ⟨rfl, nonempty⟩

theorem eq_of_diagnostic? {o : BuildOutcome} {d : Diagnostic} (h : o.diagnostic? = some d) :
    o = ofDiagnostic d := by
  obtain ⟨name, result⟩ := o
  cases result with
  | error e =>
    cases h
    rfl
  | ok s => simp [diagnostic?] at h

/-- Processors and diagnostics of some outcomes are together these outcomes, each once. -/
theorem perm_processors_diagnostics {outcomes : List BuildOutcome} (named : ∀ o ∈ outcomes, o.Named) :
    ((outcomes.filterMap processor?).map ofProcessor ++ (outcomes.filterMap diagnostic?).map ofDiagnostic).Perm
      outcomes := by
  induction outcomes with
  | nil => exact .nil
  | cons o outcomes ih =>
    have later := ih fun p mem => named p (List.mem_cons_of_mem _ mem)
    obtain ⟨name, result⟩ := o
    cases result with
    | ok p =>
      obtain ⟨rfl, _⟩ := named _ List.mem_cons_self p rfl
      exact later.cons (ofProcessor p)
    | error e => exact List.perm_middle.trans (later.cons (ofDiagnostic ⟨name, e⟩))

end BuildOutcome

namespace Registry

/-- What each registration comes to, in the order of registration; `seen` are the identifiers before
them. -/
def outcomes (indexed : Bool) (seen : List String) (registrations : List Registration) :
    List BuildOutcome :=
  registrations.mapIdx fun i reg =>
    ⟨reg.id, reg.outcome indexed (seen ++ (registrations.take i).map Registration.id)⟩

variable {indexed : Bool}

theorem outcomes_cons (seen : List String) (reg : Registration) (rest : List Registration) :
    outcomes indexed seen (reg :: rest) =
      ⟨reg.id, reg.outcome indexed seen⟩ :: outcomes indexed (seen ++ [reg.id]) rest := by
  simp only [outcomes, List.mapIdx_cons, List.take_zero, List.map_nil, List.append_nil,
    List.take_succ_cons, List.map_cons, List.append_assoc, List.singleton_append]

theorem ids_outcomes (seen : List String) (registrations : List Registration) :
    (outcomes indexed seen registrations).map BuildOutcome.id = registrations.map Registration.id := by
  induction registrations generalizing seen with
  | nil => rfl
  | cons reg rest ih => rw [outcomes_cons, List.map_cons, List.map_cons, ih]

theorem exists_of_mem_outcomes {seen : List String} {registrations : List Registration}
    {o : BuildOutcome} (h : o ∈ outcomes indexed seen registrations) :
    ∃ reg ∈ registrations, ∃ earlier : List String, seen ⊆ earlier ∧
      o = ⟨reg.id, reg.outcome indexed earlier⟩ := by
  obtain ⟨i, bound, rfl⟩ := List.mem_mapIdx.1 h
  exact ⟨_, List.getElem_mem bound, _, List.subset_append_left _ _, rfl⟩

theorem named_of_mem_outcomes {seen : List String} {registrations : List Registration}
    {o : BuildOutcome} (h : o ∈ outcomes indexed seen registrations) : o.Named := by
  obtain ⟨reg, _, earlier, _, rfl⟩ := exists_of_mem_outcomes h
  exact fun p ok => Registration.id_of_outcome ok

/-- A registration after another of its identifier is a duplicate. -/
theorem outcomes_later (seen : List String) (registrations : List Registration) :
    (outcomes indexed seen registrations).Pairwise fun a b =>
      a.id = b.id → b.result = .error .duplicate := by
  induction registrations generalizing seen with
  | nil => exact .nil
  | cons reg rest ih =>
    rw [outcomes_cons, List.pairwise_cons]
    refine ⟨fun o mem same => ?_, ih _⟩
    obtain ⟨other, _, earlier, known, rfl⟩ := exists_of_mem_outcomes mem
    have there : other.id ∈ seen ++ [reg.id] := List.mem_append_right _ (List.mem_singleton.2 same.symm)
    exact if_pos (known there)

/-- Going through registrations in order gives their outcomes, processors and diagnostics apart. -/
theorem buildFrom_eq {seen before : List String} (same : ∀ name, name ∈ before ↔ name ∈ seen)
    (registrations : List Registration) :
    buildFrom indexed before registrations =
      ((outcomes indexed seen registrations).filterMap BuildOutcome.processor?,
        (outcomes indexed seen registrations).filterMap BuildOutcome.diagnostic?) := by
  induction registrations generalizing seen before with
  | nil => rfl
  | cons reg rest ih =>
    rw [outcomes_cons, buildFrom]
    by_cases known : reg.id ∈ before
    · have same' (name : String) : name ∈ before ↔ name ∈ seen ++ [reg.id] := by
        rw [List.mem_append, List.mem_singleton, same]
        exact ⟨.inl, Or.rec id fun eq => eq ▸ (same _).1 known⟩
      have duplicate : reg.outcome indexed seen = .error .duplicate := if_pos ((same _).1 known)
      rw [if_pos known, ih same', duplicate]
      rfl
    · have same' (name : String) : name ∈ reg.id :: before ↔ name ∈ seen ++ [reg.id] := by
        rw [List.mem_append, List.mem_singleton, List.mem_cons, same, or_comm]
      have first : reg.outcome indexed seen = reg.build indexed :=
        if_neg fun mem => known ((same _).2 mem)
      rw [if_neg known, ih same', first]
      cases reg.build indexed <;> rfl

/-- Whether a registration is made depends only on those of its own identifier. -/
theorem filter_outcomes (k : String) {seen before : List String} (same : k ∈ before ↔ k ∈ seen)
    (registrations : List Registration) :
    (outcomes indexed seen registrations).filter (·.id = k) =
      outcomes indexed before (registrations.filter (·.id = k)) := by
  induction registrations generalizing seen before with
  | nil => rfl
  | cons reg rest ih =>
    rw [outcomes_cons]
    by_cases eq : reg.id = k
    · have same' : k ∈ before ++ [reg.id] ↔ k ∈ seen ++ [reg.id] := by
        rw [List.mem_append, List.mem_append, same]
      rw [List.filter_cons_of_pos (by simpa using eq), List.filter_cons_of_pos (by simpa using eq),
        outcomes_cons, ih same', reg.outcome_congr indexed (eq ▸ same.symm)]
    · have same' : k ∈ before ↔ k ∈ seen ++ [reg.id] := by
        rw [List.mem_append, List.mem_singleton, same]
        exact ⟨.inl, Or.rec id fun other => absurd other.symm eq⟩
      rw [List.filter_cons_of_neg (by simpa using eq), List.filter_cons_of_neg (by simpa using eq),
        ih same']

theorem sorted_pairwise (registry : Registry) : registry.sorted.Pairwise fun a b => a.id ≤ b.id :=
  Text.sortBy_pairwise Registration.id registry

theorem outcomes_sorted_pairwise (registry : Registry) :
    (outcomes indexed [] registry.sorted).Pairwise fun a b => a.id ≤ b.id := by
  have ids := List.pairwise_map.2 registry.sorted_pairwise
  rw [← ids_outcomes [], List.pairwise_map] at ids
  exact ids

/-- The outcomes of the sorted registrations are the sorted outcomes. -/
theorem outcomes_sorted (registry : Registry) :
    outcomes indexed [] registry.sorted =
      Text.sortBy BuildOutcome.id (outcomes indexed [] registry) := by
  refine Text.eq_of_filter_eq registry.outcomes_sorted_pairwise (Text.sortBy_pairwise _ _) fun k => ?_
  rw [Text.filter_sortBy, filter_outcomes k Iff.rfl, filter_outcomes k Iff.rfl]
  exact congrArg _ (Text.filter_sortBy Registration.id registry k)

theorem build_eq (registry : Registry) :
    registry.build indexed =
      ((outcomes indexed [] registry.sorted).filterMap BuildOutcome.processor?,
        (outcomes indexed [] registry.sorted).filterMap BuildOutcome.diagnostic?) :=
  buildFrom_eq (fun _ => Iff.rfl) _

/-- Processors come in the order of their identifiers, and no two have the same. -/
theorem build_processors_increasing (registry : Registry) :
    (registry.build indexed).1.Pairwise fun a b => a.id < b.id := by
  rw [build_eq, List.pairwise_filterMap]
  have ordered := registry.outcomes_sorted_pairwise.and (@outcomes_later indexed [] registry.sorted)
  refine ordered.imp_of_mem fun {a b} memA memB both p fromA s fromB => ?_
  obtain ⟨rfl, _⟩ := BuildOutcome.eq_of_processor? (named_of_mem_outcomes memA) fromA
  obtain ⟨rfl, _⟩ := BuildOutcome.eq_of_processor? (named_of_mem_outcomes memB) fromB
  refine lt_of_le_of_ne both.1 fun same => ?_
  exact absurd (both.2 same) nofun

theorem build_diagnostics_ordered (registry : Registry) :
    (registry.build indexed).2.Pairwise fun a b => a.id ≤ b.id := by
  rw [build_eq, List.pairwise_filterMap]
  refine registry.outcomes_sorted_pairwise.imp fun {a b} le d fromA e fromB => ?_
  rw [BuildOutcome.eq_of_diagnostic? fromA, BuildOutcome.eq_of_diagnostic? fromB] at le
  exact le

/-- What the later registrations of an identifier would make does not matter. -/
theorem outcomes_congr {registry other : Registry}
    (ids : other.map Registration.id = registry.map Registration.id)
    (firsts : ∀ (i : Nat) reg, registry[i]? = some reg →
      reg.id ∉ (registry.take i).map Registration.id → other[i]? = some reg) :
    outcomes indexed [] other = outcomes indexed [] registry := by
  refine List.ext_getElem? fun i => ?_
  have named : other[i]?.map Registration.id = registry[i]?.map Registration.id := by
    rw [← List.getElem?_map, ← List.getElem?_map, ids]
  have earlier : (other.take i).map Registration.id = (registry.take i).map Registration.id := by
    rw [List.map_take, List.map_take, ids]
  simp only [outcomes, List.getElem?_mapIdx, List.nil_append, earlier]
  cases at_ : registry[i]? with
  | none =>
    rw [at_, Option.map_none, Option.map_eq_none_iff] at named
    rw [named]
  | some reg =>
    by_cases known : reg.id ∈ (registry.take i).map Registration.id
    · rw [at_, Option.map_some, Option.map_eq_some_iff] at named
      obtain ⟨instead, there, same⟩ := named
      simp only [there, Option.map_some, Registration.outcome, same, if_pos known]
    · rw [firsts i reg at_ known]

theorem build_congr {registry other : Registry}
    (h : outcomes indexed [] other = outcomes indexed [] registry) :
    other.build indexed = registry.build indexed := by
  rw [build_eq, build_eq, outcomes_sorted, outcomes_sorted, h]

/-- How processors and diagnostics account for the registrations of a registry. -/
structure Accounts (indexed : Bool) (registry : Registry) (processors : List Processor)
    (diagnostics : List Diagnostic) : Prop where
  /-- Each registration comes to a processor or to a diagnostic, under its identifier, -/
  outcomes : (processors.map BuildOutcome.ofProcessor ++ diagnostics.map BuildOutcome.ofDiagnostic).Perm
    (Registry.outcomes indexed [] registry)
  /-- and to no more than that. -/
  total : processors.length + diagnostics.length = registry.length
  named : ∀ p ∈ processors, p.id ≠ ""
  increasing : processors.Pairwise fun a b => Text.bytes a.id < Text.bytes b.id
  ordered : diagnostics.Pairwise fun a b => Text.bytes a.id ≤ Text.bytes b.id
  /-- Only the first registration of an identifier is made: any others would do in place of the rest. -/
  firstsOnly : ∀ other : Registry, other.map Registration.id = registry.map Registration.id →
    (∀ (i : Nat) reg, registry[i]? = some reg → reg.id ∉ (registry.take i).map Registration.id →
      other[i]? = some reg) →
    other.build indexed = (processors, diagnostics)

/-- **Every registration is accounted for.** Whatever the identifiers are and the makers come back
with, each registration gives one processor or one diagnostic: the first of a trimmed identifier what its
maker makes of it, and each later one that it is a duplicate. Processors and diagnostics are in the order of
their identifiers, compared by bytes, and the registry lists all identifiers in that order. -/
theorem build_accounts (given : List Registration) (indexed : Bool) :
    let registry := Registry.ofList given
    Accounts indexed registry (registry.build indexed).1 (registry.build indexed).2 ∧
    registry.ids.Pairwise (fun a b => Text.bytes a ≤ Text.bytes b) ∧
    registry.ids.Perm (given.map fun reg => Text.trim reg.id) := by
  intro registry
  have accounted : ((registry.build indexed).1.map BuildOutcome.ofProcessor ++
      (registry.build indexed).2.map BuildOutcome.ofDiagnostic).Perm (outcomes indexed [] registry) := by
    have sorted := Text.sortBy_perm BuildOutcome.id (Registry.outcomes indexed [] registry)
    rw [← outcomes_sorted] at sorted
    rw [build_eq]
    exact (BuildOutcome.perm_processors_diagnostics fun o mem => named_of_mem_outcomes mem).trans sorted
  refine ⟨?_, ?_, ?_⟩
  · constructor
    case outcomes => exact accounted
    case total =>
      have lengths := accounted.length_eq
      rw [List.length_append, List.length_map, List.length_map] at lengths
      exact lengths.trans List.length_mapIdx
    case named =>
      intro p mem
      rw [build_eq] at mem
      obtain ⟨o, there, made⟩ := List.mem_filterMap.1 mem
      exact (BuildOutcome.eq_of_processor? (named_of_mem_outcomes there) made).2
    case increasing => exact registry.build_processors_increasing.imp Text.bytes_lt_iff.2
    case ordered => exact registry.build_diagnostics_ordered.imp Text.bytes_le_iff.2
    case firstsOnly => exact fun other ids firsts => build_congr (outcomes_congr ids firsts)
  · exact (List.pairwise_map.2 registry.sorted_pairwise).imp Text.bytes_le_iff.2
  · have perm := (Text.sortBy_perm Registration.id registry).map Registration.id
    have trimmed : registry.map Registration.id = given.map fun reg => Text.trim reg.id := by
      simp only [registry, ofList, List.map_map, Function.comp_def]
    rw [trimmed] at perm
    exact perm

end Registry

end ShopLint
