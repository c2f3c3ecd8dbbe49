import ShopLint.Proofs.ClassIndex
import ShopLint.Proofs.Dict
import Mathlib.Data.List.Nodup
import Mathlib.Data.List.Perm.Subperm

/-!
The parts of a class index fit together whatever has been indexed, and however the files changed in
the meantime. One more file does one of three things (`Adds`); each keeps the index consistent and
what it already said, and so does a whole history of calls.
-/

namespace ShopLint.ClassIndex

/-- The classes noted under a parent, in the order in which they came. -/
def listed (index : ClassIndex) (parent : String) : List String :=
  (index.children.get? parent).getD []

/-- The index with a file marked as looked at. -/
def mark (index : ClassIndex) (path : String) : ClassIndex :=
  { index with processed := path :: index.processed }

/-- What one more file can do to an index: nothing, since it was looked at; a mark, since it declares
no class or one that is known; or a mark and a declaration. -/
inductive Adds (host : Host) (index : ClassIndex) (path : String) : ClassIndex → Prop
  | known (done : path ∈ index.processed) : Adds host index path index
  | silent (new : path ∉ index.processed)
      (old : ∀ d, host.declared? path = some d →
        ∃ first, index.files.get? d.className = some first) :
      Adds host index path (index.mark path)
  | declares (new : path ∉ index.processed) (d : Declared)
      (content : host.declared? path = some d)
      (fresh : index.files.get? d.className = none) :
      Adds host index path ((index.mark path).declare path d)

theorem addFile_adds (host : Host) (index : ClassIndex) (path : String) :
    Adds host index path (index.addFile host path) := by
  by_cases done : path ∈ index.processed
  · rw [addFile, if_pos done]
    exact .known done
  rw [addFile, if_neg done]
  cases content : host.declared? path with
  | none => exact .silent done fun d eq => by simp [content] at eq
  | some d =>
    cases fresh : index.files.get? d.className with
    | none => exact .declares done d content fresh
    | some first =>
      have contains : index.files.contains d.className = true := by
        rw [Dict.contains, fresh]
        rfl
      have same : (index.mark path).declare path d = index.mark path := if_pos contains
      show Adds host index path ((index.mark path).declare path d)
      rw [same]
      refine .silent done fun e eq => ?_
      cases content.symm.trans eq
      exact ⟨first, fresh⟩

/-! What a declaration changes -/

section Declare

variable {index : ClassIndex} {path : String} {d : Declared}

theorem declare_of_fresh (fresh : index.files.get? d.className = none) :
    index.declare path d =
      let filed := { index with files := index.files.insert d.className path }
      if d.parent = "" then filed
      else
        { filed with
          parents := index.parents.insert d.className d.parent
          children := index.children.alter d.parent fun known => known.getD [] ++ [d.className] } := by
  have absent : ¬index.files.contains d.className := by simp [Dict.contains, fresh]
  exact if_neg absent

theorem files_declare (fresh : index.files.get? d.className = none) (c : String) :
    (index.declare path d).files.get? c =
      if c = d.className then some path else index.files.get? c := by
  rw [declare_of_fresh fresh, ← Dict.get?_insert]
  split <;> rfl

theorem parents_declare (fresh : index.files.get? d.className = none) (c : String) :
    (index.declare path d).parents.get? c =
      if d.parent ≠ "" ∧ c = d.className then some d.parent else index.parents.get? c := by
  rw [declare_of_fresh fresh]
  split
  next root => rw [if_neg fun both => both.1 root]
  next extends_ =>
    rw [Dict.get?_insert]
    simp only [ne_eq, extends_, not_false_eq_true, true_and]

theorem listed_declare (fresh : index.files.get? d.className = none) (p : String) :
    (index.declare path d).listed p =
      if d.parent ≠ "" ∧ p = d.parent then index.listed p ++ [d.className] else index.listed p := by
  rw [declare_of_fresh fresh]
  split
  next root => rw [if_neg fun both => both.1 root]; rfl
  next extends_ =>
    by_cases eq : p = d.parent
    · rw [if_pos ⟨extends_, eq⟩, eq]
      simp only [listed, Dict.get?_alter_self, Option.getD_some]
    · rw [if_neg fun both => eq both.2]
      simp only [listed, Dict.get?_alter_ne _ eq]

end Declare

/-! The invariant -/

/-- The parts of an index fit together. -/
structure Consistent (index : ClassIndex) : Prop where
  /-- A class is listed under a parent just if that is its parent, -/
  children : ∀ c p, c ∈ index.listed p ↔ index.parents.get? c = some p
  /-- and then once. -/
  childrenOnce : ∀ p, (index.listed p).Nodup
  /-- A class with a parent has a file. -/
  declared : ∀ c p, index.parents.get? c = some p → ∃ path, index.files.get? c = some path
  /-- A file declares one class, -/
  oneClass : ∀ c d path, index.files.get? c = some path → index.files.get? d = some path → c = d
  /-- and has been looked at, -/
  lookedAt : ∀ c path, index.files.get? c = some path → path ∈ index.processed
  /-- which is noted once. -/
  notedOnce : index.processed.Nodup

/-- What the first index says of a file or class the second says too. -/
structure GrowsTo (index next : ClassIndex) : Prop where
  processed : ∀ path ∈ index.processed, path ∈ next.processed
  files : ∀ c path, index.files.get? c = some path → next.files.get? c = some path
  parents : ∀ c p, index.parents.get? c = some p → next.parents.get? c = some p

theorem GrowsTo.refl (index : ClassIndex) : index.GrowsTo index :=
  ⟨fun _ => id, fun _ _ => id, fun _ _ => id⟩

theorem GrowsTo.trans {a b c : ClassIndex} (ab : a.GrowsTo b) (bc : b.GrowsTo c) : a.GrowsTo c where
  processed path mem := bc.processed path (ab.processed path mem)
  files k path eq := bc.files k path (ab.files k path eq)
  parents k p eq := bc.parents k p (ab.parents k p eq)

namespace Consistent

theorem empty : Consistent {} where
  children c p := by simp [listed]
  childrenOnce p := by simp [listed]
  declared c p eq := by simp at eq
  oneClass c d path eq := by simp at eq
  lookedAt c path eq := by simp at eq
  notedOnce := List.nodup_nil

variable {index : ClassIndex} {path : String} {d : Declared}

theorem mark (h : index.Consistent) (new : path ∉ index.processed) : (index.mark path).Consistent where
  children := h.children
  childrenOnce := h.childrenOnce
  declared := h.declared
  oneClass := h.oneClass
  lookedAt c p eq := List.mem_cons_of_mem _ (h.lookedAt c p eq)
  notedOnce := List.nodup_cons.2 ⟨new, h.notedOnce⟩

/-- A class without a file has no parent. -/
theorem parents_eq_none (h : index.Consistent) {c : String} (absent : index.files.get? c = none) :
    index.parents.get? c = none := by
  rw [Option.eq_none_iff_forall_ne_some]
  intro p eq
  obtain ⟨path, there⟩ := h.declared c p eq
  simp [absent] at there

theorem not_mem_listed (h : index.Consistent) {c : String} (absent : index.files.get? c = none)
    (p : String) : c ∉ index.listed p := by
  rw [h.children, h.parents_eq_none absent]
  simp

/-- A new class can be declared by a file that has been looked at and declares no other. -/
theorem declare (h : index.Consistent) (fresh : index.files.get? d.className = none)
    (looked : path ∈ index.processed) (unused : ∀ c, index.files.get? c ≠ some path) :
    (index.declare path d).Consistent where
  children c p := by
    rw [listed_declare fresh, parents_declare fresh]
    by_cases same : c = d.className
    · subst same
      have unlisted := h.not_mem_listed fresh p
      have orphan := h.parents_eq_none fresh
      by_cases root : d.parent = ""
      · simp [root, unlisted, orphan]
      · by_cases eq : p = d.parent <;> simp [root, eq, unlisted, eq_comm]
    · have kept : ¬(d.parent ≠ "" ∧ c = d.className) := fun both => same both.2
      rw [if_neg kept, ← h.children]
      split <;> simp [same]
  childrenOnce p := by
    rw [listed_declare fresh]
    split
    · refine List.Nodup.append (h.childrenOnce p) (List.nodup_singleton _) ?_
      exact List.disjoint_singleton.2 (h.not_mem_listed fresh p)
    · exact h.childrenOnce p
  declared c p eq := by
    rw [files_declare fresh]
    split
    · exact ⟨path, rfl⟩
    next other =>
      rw [parents_declare fresh, if_neg fun both => other both.2] at eq
      exact h.declared c p eq
  oneClass c e file inC inE := by
    rw [files_declare fresh] at inC inE
    split at inC <;> split at inE
    · simp_all
    · exact absurd (inC ▸ inE) (unused e)
    · exact absurd (inE ▸ inC) (unused c)
    · exact h.oneClass c e file inC inE
  lookedAt c file eq := by
    rw [processed_declare]
    rw [files_declare fresh] at eq
    split at eq
    · exact Option.some.inj eq ▸ looked
    · exact h.lookedAt c file eq
  notedOnce := by
    rw [processed_declare]
    exact h.notedOnce

/-- A file that is new declares nothing yet. -/
theorem unused_of_new (h : index.Consistent) (new : path ∉ index.processed) (c : String) :
    index.files.get? c ≠ some path :=
  fun eq => new (h.lookedAt c path eq)

theorem growsTo_declare (h : index.Consistent) (fresh : index.files.get? d.className = none) :
    index.GrowsTo (index.declare path d) where
  processed := by
    rw [processed_declare]
    exact fun _ => id
  files c file eq := by
    rw [files_declare fresh, if_neg fun same => by simp [same, fresh] at eq]
    exact eq
  parents c p eq := by
    rw [parents_declare fresh, if_neg]
    · exact eq
    · rintro ⟨_, same⟩
      simp [same, h.parents_eq_none fresh] at eq

/-- What one more file preserves. -/
theorem addFile (h : index.Consistent) (host : Host) (path : String) :
    (index.addFile host path).Consistent ∧ index.GrowsTo (index.addFile host path) := by
  have marked : index.GrowsTo (index.mark path) :=
    ⟨fun _ => List.mem_cons_of_mem _, fun _ _ => id, fun _ _ => id⟩
  have step := addFile_adds host index path
  generalize index.addFile host path = next at step ⊢
  cases step with
  | known => exact ⟨h, .refl index⟩
  | silent new => exact ⟨h.mark new, marked⟩
  | declares new d _ fresh =>
    exact ⟨(h.mark new).declare fresh List.mem_cons_self (h.unused_of_new new),
      marked.trans ((h.mark new).growsTo_declare fresh)⟩

/-- There are no more classes than files that were looked at. -/
theorem size_le (h : index.Consistent) : index.size ≤ index.processed.length := by
  have values : index.files.values.Nodup := by
    refine List.Nodup.map_on ?_ index.files.entries_nodup
    rintro ⟨c, path⟩ inC ⟨e, file⟩ inE eq
    rw [Dict.mem_entries_iff] at inC inE
    cases eq
    rw [h.oneClass c e path inC inE]
  have among : index.files.values ⊆ index.processed := by
    intro path mem
    obtain ⟨c, eq⟩ := (Dict.mem_values_iff _ _).1 mem
    exact h.lookedAt c path eq
  calc index.size = index.files.values.length := (List.length_map _).symm
    _ ≤ index.processed.length := (List.subperm_of_subset values among).length_le

end Consistent

/-! Histories -/

/-- A call that indexes one file or several, on the machine as it is at that moment. -/
inductive Call
  | file (host : Host) (path : String)
  | files (host : Host) (paths : List String)

/-- The files that a call names. -/
def Call.paths : Call → List String
  | .file _ path => [path]
  | .files _ paths => paths

def call (index : ClassIndex) : Call → ClassIndex
  | .file host path => index.addFile host path
  | .files host paths => index.addFiles host paths

/-- The index after some calls. Each brings its own machine, so the files may change between them. -/
def run (index : ClassIndex) (calls : List Call) : ClassIndex := calls.foldl call index

/-- What one more file preserves is preserved by any calls. -/
theorem run_induction {P : ClassIndex → Prop}
    (step : ∀ host index path, P index → P (index.addFile host path)) {index : ClassIndex}
    (start : P index) (calls : List Call) : P (index.run calls) := by
  have files (host : Host) (paths : List String) {index : ClassIndex} (start : P index) :
      P (index.addFiles host paths) := by
    induction paths generalizing index with
    | nil => exact start
    | cons path paths ih => exact ih (step host index path start)
  induction calls generalizing index with
  | nil => exact start
  | cons first calls ih =>
    cases first with
    | file host path => exact ih (step host index path start)
    | files host paths => exact ih (files host paths start)

theorem Consistent.run {index : ClassIndex} (h : index.Consistent) (calls : List Call) :
    (index.run calls).Consistent ∧ index.GrowsTo (index.run calls) := by
  refine run_induction (P := fun next => next.Consistent ∧ index.GrowsTo next) ?_ ⟨h, .refl index⟩ calls
  rintro host next path ⟨consistent, grown⟩
  have ⟨consistent', grown'⟩ := consistent.addFile host path
  exact ⟨consistent', grown.trans grown'⟩

theorem mem_processed_call (index : ClassIndex) (c : Call) (path : String) :
    path ∈ (index.call c).processed ↔ path ∈ index.processed ∨ path ∈ c.paths := by
  cases c with
  | file host file => simp [call, Call.paths, mem_processed_addFile]
  | files host paths => simp [call, Call.paths, mem_processed_addFiles]

theorem mem_processed_run (index : ClassIndex) (calls : List Call) (path : String) :
    path ∈ (index.run calls).processed ↔
      path ∈ index.processed ∨ ∃ c ∈ calls, path ∈ c.paths := by
  induction calls generalizing index with
  | nil => simp [run]
  | cons first calls ih =>
    rw [List.exists_mem_cons_iff, ← or_assoc, ← mem_processed_call]
    exact ih (index.call first)

/-- **The class index is always consistent.** After any calls its parts fit together and there are no
more classes than files looked at, which are those that the calls named. Later calls keep what it says
of a file or class. A file that was looked at changes nothing, whatever it holds by now, and the first
file to declare a class is recorded with what it declares. -/
theorem run_consistent (calls later : List Call) :
    let index := ({} : ClassIndex).run calls
    index.Consistent ∧ index.size ≤ index.processed.length ∧
    (∀ path, index.isProcessed path ↔ ∃ c ∈ calls, path ∈ c.paths) ∧
    index.GrowsTo (index.run later) ∧
    ∀ host path,
      (index.isProcessed path → index.addFile host path = index) ∧
      ∀ d, ¬index.isProcessed path → host.declared? path = some d →
        index.files.get? d.className = none →
          (index.addFile host path).files.get? d.className = some path ∧
          (index.addFile host path).parents.get? d.className =
            if d.parent = "" then none else some d.parent := by
  intro index
  have consistent : index.Consistent := (Consistent.empty.run calls).1
  refine ⟨consistent, consistent.size_le, fun path => ?_, (consistent.run later).2,
    fun host path => ⟨fun done => ?_, fun d new content fresh => ?_⟩⟩
  · simp only [isProcessed, decide_eq_true_eq]
    rw [mem_processed_run]
    simp
  · exact if_pos (of_decide_eq_true done)
  · have unmarked : path ∉ index.processed := fun mem => new (decide_eq_true mem)
    have added : index.addFile host path = (index.mark path).declare path d := by
      rw [addFile, if_neg unmarked, content]
      rfl
    have fresh' : (index.mark path).files.get? d.className = none := fresh
    rw [added, files_declare fresh', parents_declare fresh', if_pos rfl,
      (consistent.mark unmarked).parents_eq_none fresh']
    simp

end ShopLint.ClassIndex
