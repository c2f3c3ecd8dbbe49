import ShopLint.Collection.Walk
import ShopLint.Proofs.Dict
import ShopLint.Proofs.Path

/-!
What is in a classification: exactly the eligible candidates, each under its type. A collected file
has a name to speak of, since every extension that is taken is one.
-/

namespace ShopLint

theorem mem_sortedSet (items : List String) (item : String) : item ∈ sortedSet items ↔ item ∈ items := by
  rw [sortedSet, Dict.mem_keys_ofList]
  simp

namespace Classification

theorem files_push (c : Classification) (fileType path other : String) :
    (c.push fileType path).files other =
      if other = fileType then c.files other ++ [path] else c.files other := by
  simp only [files, push]
  split
  next eq => subst eq; simp
  next ne => rw [Dict.get?_alter_ne _ ne]

theorem files_insert_nil {c : Classification} (h : ∀ t, c.files t = []) (fileType t : String) :
    Classification.files (c.insert fileType []) t = [] := by
  simp only [files, Dict.insert]
  by_cases eq : t = fileType
  · subst eq; simp
  · rw [Dict.get?_alter_ne _ eq]
    exact h t

end Classification

namespace Selection

theorem files_emptyClassification (s : Selection) (t : String) :
    s.emptyClassification.files t = [] := by
  have empty (exts : List String) (c : Classification) (h : ∀ t, c.files t = []) (t : String) :
      Classification.files ((exts.map fun ext => (ext, ([] : List String))).foldl
        (fun d e => d.insert e.1 e.2) c) t = [] := by
    induction exts generalizing c with
    | nil => exact h t
    | cons ext exts ih => exact ih _ fun t => Classification.files_insert_nil h ext t
  simp only [emptyClassification]
  split
  · exact Classification.files_insert_nil (empty s.extensions {} fun _ => rfl) _ t
  · exact empty s.extensions {} (fun _ => rfl) t

/-- The classification with one more candidate, if it is eligible. -/
def place (s : Selection) (c : Classification) (path : String) : Classification :=
  match s.typeOf? path with
  | some fileType => c.push fileType path
  | none => c

theorem classify_eq_foldl (s : Selection) (paths : List String) :
    s.classify paths = paths.foldl s.place s.emptyClassification :=
  rfl

theorem files_place (s : Selection) (c : Classification) (candidate t : String) :
    (s.place c candidate).files t =
      c.files t ++ if s.typeOf? candidate = some t then [candidate] else [] := by
  simp only [place]
  cases typed : s.typeOf? candidate with
  | none => simp
  | some fileType =>
    rw [Classification.files_push]
    by_cases same : t = fileType
    · simp [same]
    · simp [same, Ne.symm same]

theorem files_foldl_place (s : Selection) (c : Classification) (paths : List String) (t : String) :
    (paths.foldl s.place c).files t = c.files t ++ paths.filter (s.typeOf? · = some t) := by
  induction paths generalizing c with
  | nil => simp
  | cons path paths ih =>
    rw [List.foldl_cons, ih, files_place]
    by_cases typed : s.typeOf? path = some t
    · simp [typed]
    · simp [typed]

/-- Under each type stand the candidates of that type, in their order. -/
theorem files_classify (s : Selection) (paths : List String) (t : String) :
    (s.classify paths).files t = paths.filter (s.typeOf? · = some t) := by
  rw [classify_eq_foldl, files_foldl_place, files_emptyClassification, List.nil_append]

/-- A path that is all blank is never eligible. -/
theorem trim_ne_of_typeOf? {s : Selection} {path fileType : String} (extensions : "" ∉ s.extensions)
    (h : s.typeOf? path = some fileType) : Text.trim path ≠ "" := by
  intro blank
  have none : Text.toLower (Text.dropStart "." (Path.ext (Path.base path))) = "" := by
    rw [Path.ext_base_of_blank blank]
    rfl
  have refused : s.allowsExtension "" = false := by simpa [allowsExtension] using extensions
  simp [typeOf?, none, refused] at h

theorem ofOptions_eq_ok {host : Host} {options : ScanOptions} {s : Selection}
    (h : ofOptions host options = .ok s) :
    s = { root := s.root, extensions := allowed options
          excludeDirs := normalizeAll Text.trim options.excludeDirs
          excludeFiles := normalizeAll Text.trim options.excludeFiles
          excludePaths := normalizeAll Text.trim options.excludePaths
          fixableOnly := options.fixableOnly } := by
  simp only [ofOptions] at h
  split at h
  · simp at h
  · split at h
    · simp at h
    · simp only [Except.ok.injEq] at h
      subst h
      rfl

/-- No selection takes the empty extension. -/
theorem ofOptions_extensions {host : Host} {options : ScanOptions} {s : Selection}
    (h : ofOptions host options = .ok s) : "" ∉ s.extensions := by
  rw [congrArg extensions (ofOptions_eq_ok h)]
  simp [allowed, mem_sortedSet, normalizeAll]

end Selection

/-- What is collected is of the type under which it stands. -/
theorem mem_collect {host : Host} {s : Selection} {fileType path : String}
    (h : path ∈ (collect host s).classification.files fileType) : s.typeOf? path = some fileType := by
  simp only [collect] at h
  split at h
  · rw [Selection.files_emptyClassification] at h
    exact absurd h List.not_mem_nil
  · rw [Selection.files_classify] at h
    exact of_decide_eq_true (List.mem_filter.1 h).2

end ShopLint
