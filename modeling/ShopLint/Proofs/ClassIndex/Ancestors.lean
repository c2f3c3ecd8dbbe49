import ShopLint.Proofs.ClassIndex.Consistency
import ShopLint.Proofs.Php.ClassName

/-!
The chain of parents above a class. `Climb` is the walk without a bound on its length: from a class to
its parent, as long as there is one that was not passed. The walk ends in every index, cyclic or not,
since each class that it leaves is one more key of the index.
-/

namespace ShopLint.ClassIndex

/-- The walk from a class ends with this chain, when the classes in `seen` were passed before. -/
inductive Climb (index : ClassIndex) : List String → String → List String → Prop
  | stop {seen : List String} {c : String} (known : ∀ p, index.parentOf? c = some p → p ∈ seen) :
      Climb index seen c []
  | step {seen : List String} {c p : String} {chain : List String}
      (parent : index.parentOf? c = some p) (new : p ∉ seen) (above : Climb index (p :: seen) p chain) :
      Climb index seen c (p :: chain)

/-- The parents in an index are spelled in full. -/
def FullParents (index : ClassIndex) : Prop :=
  ∀ c p, index.parents.get? c = some p → ClassName.IsFull p

theorem FullParents.addFile {index : ClassIndex} (h : index.FullParents) (host : Host) (path : String) :
    (index.addFile host path).FullParents := by
  have step := addFile_adds host index path
  generalize index.addFile host path = next at step ⊢
  cases step with
  | known => exact h
  | silent => exact h
  | declares new d content fresh =>
    intro c p eq
    have fresh' : (index.mark path).files.get? d.className = none := fresh
    rw [parents_declare fresh'] at eq
    split at eq
    next extending =>
      cases eq
      exact isFull_of_declaredIn? content extending.1
    next => exact h c p eq

theorem FullParents.run (calls : List Call) : (({} : ClassIndex).run calls).FullParents := by
  refine run_induction (fun host index path h => h.addFile host path) ?_ calls
  intro c p eq
  simp at eq

namespace Climb

variable {index : ClassIndex} {seen : List String} {c : String} {chain : List String}

/-- There is one way up. -/
theorem unique {other : List String} (h : index.Climb seen c chain) (h' : index.Climb seen c other) :
    chain = other := by
  induction h generalizing other with
  | stop known =>
    cases h' with
    | stop => rfl
    | step parent new => exact absurd (known _ parent) new
  | step parent new _ ih =>
    cases h' with
    | stop known => exact absurd (known _ parent) new
    | step parent' _ above' =>
      cases parent.symm.trans parent'
      rw [ih above']

/-- Each class of the chain is the parent of the one before. -/
theorem linked (h : index.Climb seen c chain) :
    (c :: chain).IsChain fun a b => index.parentOf? a = some b := by
  induction h with
  | stop => exact .singleton _
  | step parent _ _ ih => exact List.isChain_cons_cons.2 ⟨parent, ih⟩

/-- No class comes twice, and none that was passed before. -/
theorem distinct (h : index.Climb seen c chain) : chain.Nodup ∧ ∀ p ∈ chain, p ∉ seen := by
  induction h with
  | stop => exact ⟨List.nodup_nil, fun p mem => absurd mem List.not_mem_nil⟩
  | @step seen c p chain _ new _ ih =>
    obtain ⟨nodup, unseen⟩ := ih
    constructor
    · exact List.nodup_cons.2 ⟨fun mem => unseen p mem List.mem_cons_self, nodup⟩
    · intro q mem
      rcases List.mem_cons.1 mem with rfl | later
      · exact new
      · exact fun passed => unseen q later (List.mem_cons_of_mem _ passed)

/-- The chain stops only where there is no parent or a known one. -/
theorem last_known (h : index.Climb seen c chain) (p : String)
    (eq : index.parentOf? ((c :: chain).getLast (List.cons_ne_nil _ _)) = some p) :
    p ∈ seen ∨ p ∈ chain := by
  induction h with
  | stop known => exact .inl (known p eq)
  | step _ _ _ ih =>
    rw [List.getLast_cons (List.cons_ne_nil _ _)] at eq
    rcases ih eq with passed | later
    · rcases List.mem_cons.1 passed with rfl | before
      · exact .inr List.mem_cons_self
      · exact .inl before
    · exact .inr (List.mem_cons_of_mem _ later)

end Climb

/-- Distinct classes with a parent are no more than there are parents. -/
theorem length_le_parents {index : ClassIndex} {classes : List String} (distinct : classes.Nodup)
    (extending : ∀ c ∈ classes, c ∈ index.parents.keys) : classes.length ≤ index.parents.size := by
  have bound := (List.subperm_of_subset distinct extending).length_le
  rwa [Dict.keys, List.length_map] at bound

/-- The walk is never cut short. The classes `below` are those that it has left, each of which has a
parent, so with what it still finds they are no more than there are parents. -/
theorem climb_ancestorsFrom {index : ClassIndex} (full : index.FullParents) {depth : Nat} {c : String}
    {below : List String} (distinct : (ClassName.bare c :: below).Nodup)
    (extending : ∀ b ∈ below, b ∈ index.parents.keys)
    (enough : index.parents.size < depth + below.length) :
    let chain := index.ancestorsFrom depth (ClassName.bare c :: below) c
    index.Climb (ClassName.bare c :: below) c chain ∧
      below.length + chain.length ≤ index.parents.size := by
  have few : below.length ≤ index.parents.size :=
    length_le_parents (List.nodup_cons.1 distinct).2 extending
  induction depth generalizing c below with
  | zero => omega
  | succ depth ih =>
    simp only [ancestorsFrom]
    split
    next root => exact ⟨.stop fun p eq => by simp [root] at eq, few⟩
    next p parent =>
      split
      next passed =>
        refine ⟨.stop fun q eq => ?_, few⟩
        cases parent.symm.trans eq
        exact passed
      next new =>
        have spelled : ClassName.bare p = p := (full _ p parent).bare_eq
        have leaving : ∀ b ∈ ClassName.bare c :: below, b ∈ index.parents.keys :=
          List.forall_mem_cons.2 ⟨(Dict.mem_keys_iff _ _).2 ⟨p, parent⟩, extending⟩
        have distinct' : (ClassName.bare p :: ClassName.bare c :: below).Nodup := by
          rw [spelled]
          exact List.nodup_cons.2 ⟨new, distinct⟩
        have enough' : index.parents.size < depth + (ClassName.bare c :: below).length := by
          rw [List.length_cons]
          omega
        obtain ⟨above, bound⟩ := ih distinct' leaving enough' (length_le_parents distinct leaving)
        rw [spelled] at above bound
        refine ⟨.step parent new above, ?_⟩
        rw [List.length_cons] at bound ⊢
        omega

/-- Each class with a parent has a file. -/
theorem Consistent.parents_size_le {index : ClassIndex} (h : index.Consistent) :
    index.parents.size ≤ index.size := by
  have filed : index.parents.keys ⊆ index.files.keys := by
    intro c mem
    obtain ⟨p, eq⟩ := (Dict.mem_keys_iff _ _).1 mem
    exact (Dict.mem_keys_iff _ _).2 (h.declared c p eq)
  have distinct : index.parents.keys.Nodup := by
    refine index.parents.keys_sorted.imp fun {a b} lt eq => ?_
    subst eq
    exact String.lt_irrefl _ lt
  have bound := (List.subperm_of_subset distinct filed).length_le
  rwa [Dict.keys, Dict.keys, List.length_map, List.length_map] at bound

/-- **The walk to the ancestors ends on every hierarchy and gives the whole chain.** After any calls
and for every name, the walk that has no bound ends with the list of ancestors and with no other. No
class is in it twice, nor the class itself; each is the parent of the one before, the first that of
the class; the last has no parent, or one that the walk has passed; and there are no more of them than
classes in the index. -/
theorem ancestors_whole_chain (calls : List Call) (c : String) :
    let index := ({} : ClassIndex).run calls
    let chain := index.ancestors c
    (∀ other, index.Climb [ClassName.bare c] c other ↔ other = chain) ∧
    chain.Nodup ∧ ClassName.bare c ∉ chain ∧
    ((c :: chain).IsChain fun a b => index.parentOf? a = some b) ∧
    (∀ p, index.parentOf? ((c :: chain).getLast (List.cons_ne_nil _ _)) = some p →
      p = ClassName.bare c ∨ p ∈ chain) ∧
    chain.length ≤ index.size := by
  intro index chain
  have consistent : index.Consistent := (Consistent.empty.run calls).1
  have walk := climb_ancestorsFrom (FullParents.run calls) (List.nodup_singleton (ClassName.bare c))
    (fun b mem => absurd mem List.not_mem_nil) (Nat.lt_succ_self _)
  obtain ⟨climb, bound⟩ : index.Climb [ClassName.bare c] c chain ∧ 0 + chain.length ≤ _ := walk
  obtain ⟨nodup, unseen⟩ := climb.distinct
  refine ⟨fun other => ⟨fun other' => other'.unique climb, fun eq => eq ▸ climb⟩, nodup,
    fun mem => unseen _ mem List.mem_cons_self, climb.linked, fun p eq => ?_, ?_⟩
  · rcases climb.last_known p eq with self | listed
    · exact .inl (List.mem_singleton.1 self)
    · exact .inr listed
  · calc chain.length = 0 + chain.length := (Nat.zero_add _).symm
      _ ≤ index.parents.size := bound
      _ ≤ index.size := consistent.parents_size_le

-- A walk that comes from outside into a cycle goes round it once.
example :
    let index : ClassIndex := { parents := .ofList [("A", "B"), ("B", "C"), ("C", "B")] }
    index.ancestors "\\A" = ["B", "C"] := by decide

end ShopLint.ClassIndex
