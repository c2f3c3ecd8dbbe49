import ShopLint.ClassIndex

/-!
Indexing files: a file that has been looked at changes nothing, so indexing a list of files again
gives the same index.
-/

namespace ShopLint.ClassIndex

variable (host : Host)

theorem processed_declare (index : ClassIndex) (path : String) (d : Declared) :
    (index.declare path d).processed = index.processed := by
  simp only [declare]
  split
  · rfl
  · split <;> rfl

theorem processed_addFile (index : ClassIndex) (path : String) :
    (index.addFile host path).processed =
      if path ∈ index.processed then index.processed else path :: index.processed := by
  simp only [addFile]
  split
  · rfl
  · split
    · exact processed_declare _ _ _
    · rfl

theorem mem_processed_addFile (index : ClassIndex) (path known : String) :
    known ∈ (index.addFile host path).processed ↔ known ∈ index.processed ∨ known = path := by
  rw [processed_addFile]
  split
  next done =>
    constructor
    · exact .inl
    · rintro (mem | rfl)
      · exact mem
      · exact done
  next => rw [List.mem_cons, or_comm]

theorem mem_processed_addFiles (index : ClassIndex) (paths : List String) (known : String) :
    known ∈ (index.addFiles host paths).processed ↔ known ∈ index.processed ∨ known ∈ paths := by
  induction paths generalizing index with
  | nil => simp [addFiles]
  | cons path paths ih =>
    rw [List.mem_cons, ← or_assoc, ← mem_processed_addFile host]
    exact ih (index.addFile host path)

theorem addFiles_of_processed {paths : List String} {index : ClassIndex}
    (h : ∀ path ∈ paths, path ∈ index.processed) : index.addFiles host paths = index := by
  induction paths with
  | nil => rfl
  | cons path paths ih =>
    have known : index.addFile host path = index := if_pos (h path List.mem_cons_self)
    show (index.addFile host path).addFiles host paths = index
    rw [known]
    exact ih fun p mem => h p (List.mem_cons_of_mem _ mem)

/-- Indexing the same files a second time is without effect. -/
theorem addFiles_addFiles (index : ClassIndex) (paths : List String) :
    (index.addFiles host paths).addFiles host paths = index.addFiles host paths :=
  addFiles_of_processed host fun path mem => (mem_processed_addFiles host index paths path).2 (.inr mem)

end ShopLint.ClassIndex
