import ShopLint.Proofs.Collection
import ShopLint.Proofs.Placement
import Mathlib.Data.List.Nodup

/-!
What is collected is just what is eligible: the walk comes to each regular file below the root that no
excluded directory hides, once, in the order of the names on its way, and of these the options decide
by name alone which are kept and under which type.
-/

namespace ShopLint

/-! What the options say -/

/-- The extension of the last segment, without its dot and in lower case. -/
def Path.extension (path : String) : String :=
  Text.toLower (Text.dropStart "." (ext (base path)))

/-- The type of a file with a given path. -/
def FileType.ofPath (path : String) : String :=
  if Path.extension path = xml ∧ Text.endsWith (Path.base path) "di.xml" then di else Path.extension path

namespace ScanOptions

/-- The extensions to look for: those that were given, or else the default ones. -/
def wanted (options : ScanOptions) : List String :=
  if options.extensions.isEmpty then defaultExtensions else options.extensions

/-- The extension is one of those to look for and not excluded. -/
def AllowsExtension (options : ScanOptions) (ext : String) : Prop :=
  ext ∈ normalizeAll normalizeExtension options.wanted ∧
    ext ∉ normalizeAll normalizeExtension options.excludedExtensions

instance (options : ScanOptions) (ext : String) : Decidable (options.AllowsExtension ext) :=
  inferInstanceAs (Decidable (_ ∧ _))

/-- A file with this path is to be kept, if the walk comes to it. -/
structure Admits (options : ScanOptions) (path : String) : Prop where
  extension : options.AllowsExtension (Path.extension path)
  name : Path.base path ∉ normalizeAll Text.trim options.excludeFiles
  path : path ∉ normalizeAll Text.trim options.excludePaths

end ScanOptions

namespace Host

/-- There is something to walk: a directory, itself and not a link to one, with names in order, or a
regular file, which may be behind a link. -/
def IsScannable (host : Host) (root : String) : Prop :=
  (∃ entries, host.linkAt root = .ok (.dir entries) ∧ Entry.ProperIn entries) ∨
    ∃ bytes, host.entryAt root = .ok (.file bytes)

/-- The path is that of the root file, or of a regular file below the root with no excluded directory
between the two. Plain descent by names follows no link. -/
def HasFile (host : Host) (excludeDirs : List String) (root path : String) : Prop :=
  (∃ bytes, host.entryAt root = .ok (.file bytes)) ∧ path = root ∨
    ∃ entries names bytes, host.linkAt root = .ok (.dir entries) ∧
      (Entry.dir entries).at? names = some (.file bytes) ∧ path = Path.below root names ∧
      ∀ n ∈ names.dropLast, n ∉ excludeDirs

end Host

/-! The walk -/

/-- What is neither a file nor a directory has no file at or below it. -/
theorem Entry.at?_ne_file {entry : Entry} (leaf : entry.entries = []) (other : ∀ text, entry ≠ file text)
    (names : List String) (bytes : List UInt8) : entry.at? names ≠ some (file bytes) := by
  cases names with
  | nil => exact fun found => other bytes (Option.some.inj found)
  | cons name names => simp [at?, leaf]

/-- The way to a file passes the entry it starts with, unless that is an excluded directory. -/
theorem Entry.way_free_cons {excluded : String → Bool} {entry : Entry} {names : List String}
    {bytes : List UInt8} (found : entry.at? names = some (file bytes)) (name : String) :
    (∀ n ∈ (name :: names).dropLast, excluded n = false) ↔
      ¬(entry.isDir && excluded name) ∧ ∀ n ∈ names.dropLast, excluded n = false := by
  cases names with
  | nil =>
    cases found
    simp [isDir]
  | cons next names =>
    obtain ⟨entries, rfl⟩ := eq_dir_of_at?_cons found
    simp [isDir]

mutual

/-- The walk of an entry comes to the files at and below it that no excluded directory hides. -/
theorem mem_filesAt {excluded : String → Bool} {dir path : String} : ∀ {entry : Entry}, entry.Proper →
    (path ∈ filesAt excluded dir entry ↔ ∃ names bytes, entry.at? names = some (.file bytes) ∧
      path = Path.below dir names ∧ ∀ n ∈ names.dropLast, excluded n = false)
  | .file bytes, _ => by
    simp only [filesAt, List.mem_singleton]
    constructor
    · rintro rfl
      exact ⟨[], bytes, rfl, rfl, by simp⟩
    · rintro ⟨names, _, found, rfl, _⟩
      cases names with
      | nil => rfl
      | cons name names => simp [Entry.at?, Entry.entries] at found
  | .dir entries, proper => by
    simp only [filesAt, mem_filesIn proper]
    constructor
    · rintro ⟨e, mem, names, bytes, found, rfl, free⟩
      refine ⟨e.1 :: names, bytes, ?_, rfl, free⟩
      simp only [Entry.at?, Entry.entries, Entry.ProperIn.lookup proper mem, Option.bind_some, found]
    · rintro ⟨names, bytes, found, rfl, free⟩
      cases names with
      | nil => cases found
      | cons name names =>
        obtain ⟨entry, first, below⟩ := Option.bind_eq_some_iff.1 found
        obtain ⟨before, after, eq, _⟩ := List.lookup_eq_some_iff.1 first
        have mem : (name, entry) ∈ entries := by
          rw [show entries = before ++ (name, entry) :: after from eq]
          simp
        exact ⟨(name, entry), mem, names, bytes, below, rfl, free⟩
  | .device, _ => by
    simp only [filesAt, List.not_mem_nil, false_iff]
    rintro ⟨names, bytes, found, _⟩
    exact Entry.at?_ne_file rfl (by simp) names bytes found
  | .link _, _ => by
    simp only [filesAt, List.not_mem_nil, false_iff]
    rintro ⟨names, bytes, found, _⟩
    exact Entry.at?_ne_file rfl (by simp) names bytes found

theorem mem_filesIn {excluded : String → Bool} {dir path : String} :
    ∀ {entries : List (String × Entry)}, Entry.ProperIn entries →
    (path ∈ filesIn excluded dir entries ↔ ∃ e ∈ entries, ∃ names bytes,
      e.2.at? names = some (.file bytes) ∧ path = Path.below dir (e.1 :: names) ∧
      ∀ n ∈ (e.1 :: names).dropLast, excluded n = false)
  | [], _ => by simp [filesIn]
  | (name, entry) :: rest, ⟨_, _, proper, others⟩ => by
    have here : (path ∈ if entry.isDir && excluded name then []
        else filesAt excluded (childPath dir name) entry) ↔ ∃ names bytes,
        entry.at? names = some (.file bytes) ∧ path = Path.below dir (name :: names) ∧
        ∀ n ∈ (name :: names).dropLast, excluded n = false := by
      split
      next hidden =>
        simp only [List.not_mem_nil, false_iff]
        rintro ⟨names, bytes, found, _, free⟩
        exact ((Entry.way_free_cons found name).1 free).1 hidden
      next shown =>
        rw [mem_filesAt proper]
        refine exists_congr fun names => exists_congr fun bytes => and_congr_right fun found => ?_
        rw [Entry.way_free_cons found name]
        exact and_congr_right fun _ => (and_iff_right shown).symm
    simp only [filesIn, List.mem_append, here, mem_filesIn others, List.exists_mem_cons_iff]

end

/-- The paths of two files below a directory, the first of which comes first by the names on the way. -/
def Path.Before (dir p q : String) : Prop :=
  ∃ names others, names ≠ [] ∧ others ≠ [] ∧ (∀ n ∈ names, IsProper n) ∧ (∀ n ∈ others, IsProper n) ∧
    names < others ∧ p = below dir names ∧ q = below dir others

theorem Path.Before.of_child {dir name p q : String} (proper : IsProper name)
    (h : Before (childPath dir name) p q) : Before dir p q := by
  obtain ⟨names, others, _, _, properNames, properOthers, lt, rfl, rfl⟩ := h
  refine ⟨name :: names, name :: others, List.cons_ne_nil _ _, List.cons_ne_nil _ _, ?_, ?_, ?_, rfl, rfl⟩
  · exact List.forall_mem_cons.2 ⟨proper, properNames⟩
  · exact List.forall_mem_cons.2 ⟨proper, properOthers⟩
  · exact List.cons_lt_cons_iff.2 (.inr ⟨rfl, lt⟩)

theorem Path.Before.segments_lt {dir p q : String} (h : Before dir p q) : segments p < segments q := by
  obtain ⟨names, others, nonempty, nonempty', proper, proper', lt, rfl, rfl⟩ := h
  rw [segments_below dir nonempty proper, segments_below dir nonempty' proper']
  exact List.append_left_lt lt

mutual

theorem filesAt_pairwise (excluded : String → Bool) (dir : String) : ∀ {entry : Entry}, entry.Proper →
    (filesAt excluded dir entry).Pairwise (Path.Before dir)
  | .file _, _ => List.pairwise_singleton _ _
  | .dir _, proper => filesIn_pairwise excluded dir proper
  | .device, _ => .nil
  | .link _, _ => .nil

/-- The walk goes by the order of the names. -/
theorem filesIn_pairwise (excluded : String → Bool) (dir : String) :
    ∀ {entries : List (String × Entry)}, Entry.ProperIn entries →
      (filesIn excluded dir entries).Pairwise (Path.Before dir)
  | [], _ => .nil
  | (name, entry) :: rest, ⟨properName, first, proper, others⟩ => by
    have inner : (if entry.isDir && excluded name then []
        else filesAt excluded (childPath dir name) entry).Pairwise (Path.Before dir) := by
      split
      · exact .nil
      · exact (filesAt_pairwise excluded _ proper).imp fun before => before.of_child properName
    refine List.pairwise_append.2 ⟨inner, filesIn_pairwise excluded dir others, ?_⟩
    intro p here q later
    -- the names of the two part at once
    have fromEntry : p ∈ filesAt excluded (childPath dir name) entry := by
      split at here
      · exact absurd here List.not_mem_nil
      · exact here
    obtain ⟨names, _, found, rfl, _⟩ := (mem_filesAt proper).1 fromEntry
    obtain ⟨e, mem, more, _, found', rfl, _⟩ := (mem_filesIn others).1 later
    have inRest := Entry.ProperIn.of_lookup others (Entry.ProperIn.lookup others mem)
    refine ⟨name :: names, e.1 :: more, List.cons_ne_nil _ _, List.cons_ne_nil _ _, ?_, ?_, ?_, rfl, rfl⟩
    · exact List.forall_mem_cons.2 ⟨properName, (proper.of_at? found).1⟩
    · exact List.forall_mem_cons.2 ⟨inRest.1, (inRest.2.of_at? found').1⟩
    · exact List.cons_lt_cons_iff.2 (.inl (first e mem))

end

/-- The candidates are the files of the root, each once and in the order of the names. -/
theorem candidates_of_isScannable {host : Host} {s : Selection} (scannable : host.IsScannable s.root) :
    ∃ paths, candidates? host s = some paths ∧
      (∀ path, path ∈ paths ↔ host.HasFile s.excludeDirs s.root path) ∧
      paths.Pairwise fun p q => Path.segments p < Path.segments q := by
  rcases scannable with ⟨entries, isDir, proper⟩ | ⟨bytes, isFile⟩
  · refine ⟨filesIn s.excludesDir s.root entries, ?_, fun path => ?_, ?_⟩
    · simp only [candidates?, Host.entryAt_of_linkAt isDir, isDir]
    · have walked := @mem_filesAt s.excludesDir s.root path (.dir entries) proper
      rw [show filesIn s.excludesDir s.root entries = filesAt s.excludesDir s.root (.dir entries) from rfl,
        walked, Host.HasFile, Host.entryAt_of_linkAt isDir, isDir]
      simp [Selection.excludesDir]
    · exact (filesIn_pairwise s.excludesDir s.root proper).imp fun before => before.segments_lt
  · refine ⟨[s.root], ?_, fun path => ?_, List.pairwise_singleton _ _⟩
    · simp only [candidates?, isFile]
    · rw [List.mem_singleton, Host.HasFile]
      constructor
      · exact fun eq => .inl ⟨⟨bytes, isFile⟩, eq⟩
      · rintro (⟨_, eq⟩ | ⟨entries, _, _, isDir, _⟩)
        · exact eq
        · rw [Host.entryAt_of_linkAt isDir] at isFile
          cases isFile

/-! The selection that the options stand for -/

namespace Selection

theorem mem_allowed (options : ScanOptions) (ext : String) :
    ext ∈ allowed options ↔ options.AllowsExtension ext := by
  simp only [allowed, mem_sortedSet, List.mem_filter, decide_eq_true_eq]
  rfl

variable {host : Host} {options : ScanOptions} {s : Selection}

theorem mem_extensions (accepted : ofOptions host options = .ok s) (ext : String) :
    ext ∈ s.extensions ↔ options.AllowsExtension ext := by
  rw [congrArg extensions (ofOptions_eq_ok accepted), mem_allowed]

/-- A path is of a type if the options admit it and it is the type of such paths. -/
theorem typeOf?_eq_some (accepted : ofOptions host options = .ok s) (path t : String) :
    s.typeOf? path = some t ↔ options.Admits path ∧ t = FileType.ofPath path := by
  have allowed : s.allowsExtension (Path.extension path) ↔
      options.AllowsExtension (Path.extension path) := by
    rw [allowsExtension, decide_eq_true_eq, mem_extensions accepted]
  have name : s.excludesFile (Path.base path) ↔
      Path.base path ∈ normalizeAll Text.trim options.excludeFiles := by
    rw [excludesFile, decide_eq_true_eq, congrArg excludeFiles (ofOptions_eq_ok accepted)]
  have whole : s.excludesPath path ↔ path ∈ normalizeAll Text.trim options.excludePaths := by
    rw [excludesPath, decide_eq_true_eq, congrArg excludePaths (ofOptions_eq_ok accepted)]
  have kind : s.typeOf? path =
      if !s.allowsExtension (Path.extension path) || s.excludesFile (Path.base path) ||
        s.excludesPath path then none
      else if Path.extension path = FileType.xml && Text.endsWith (Path.base path) "di.xml" then
        some FileType.di
      else some (Path.extension path) := rfl
  by_cases admitted : options.Admits path
  · rw [kind, if_neg, FileType.ofPath]
    · simp only [admitted, true_and, Bool.and_eq_true, decide_eq_true_eq]
      split <;> simp [eq_comm]
    · simp [allowed.2 admitted.extension, name, admitted.name, whole, admitted.path]
  · rw [kind, if_pos]
    · simp [admitted]
    · by_contra taken
      simp only [Bool.or_eq_true, not_or, Bool.not_eq_true', Bool.not_eq_false] at taken
      exact admitted ⟨allowed.1 taken.1.1, mt name.2 taken.1.2, mt whole.2 taken.2⟩

/-- The types that there is a list for. -/
def HasType (s : Selection) (t : String) : Prop :=
  t ∈ s.extensions ∨ t = FileType.di ∧ FileType.xml ∈ s.extensions

theorem hasType_of_typeOf? {path t : String} (typed : s.typeOf? path = some t) : s.HasType t := by
  simp only [typeOf?] at typed
  split at typed
  · cases typed
  next taken =>
    simp only [allowsExtension, Bool.or_eq_true, not_or, Bool.not_eq_true', decide_eq_false_iff_not,
      not_not] at taken
    split at typed
    next isDi =>
      simp only [Bool.and_eq_true, decide_eq_true_eq] at isDi
      rw [isDi.1] at taken
      exact .inr ⟨(Option.some.inj typed).symm, taken.1.1⟩
    next => exact .inl (Option.some.inj typed ▸ taken.1.1)

theorem mem_types_emptyClassification (s : Selection) (t : String) :
    t ∈ s.emptyClassification.types ↔ s.HasType t := by
  have extensions : t ∈ (Dict.ofList (s.extensions.map fun ext => (ext, ([] : List String)))).keys ↔
      t ∈ s.extensions := by
    rw [Dict.mem_keys_ofList]
    simp
  simp only [emptyClassification, HasType, Classification.types, allowsExtension, decide_eq_true_eq]
  split
  next withXml => rw [Dict.insert, Dict.mem_keys_alter, extensions, or_comm, and_iff_left withXml]
  next noXml => rw [extensions, or_iff_left fun h => noXml h.2]

/-- Classifying adds no type to those that there is a list for. -/
theorem mem_types_classify (s : Selection) (paths : List String) (t : String) :
    t ∈ (s.classify paths).types ↔ s.HasType t := by
  have kept (c : Classification) (h : ∀ t, t ∈ c.types ↔ s.HasType t) :
      t ∈ (paths.foldl s.place c).types ↔ s.HasType t := by
    induction paths generalizing c with
    | nil => exact h t
    | cons path paths ih =>
      refine ih _ fun t => ?_
      simp only [place]
      split
      next fileType typed =>
        rw [Classification.types, Classification.push, Dict.mem_keys_alter, ← h t]
        exact or_iff_right_of_imp fun eq => eq ▸ (h fileType).2 (hasType_of_typeOf? typed)
      next => exact h t
  rw [classify_eq_foldl]
  exact kept _ s.mem_types_emptyClassification

/-- No candidate is classified twice. -/
theorem nodup_classify (s : Selection) {paths : List String} (distinct : paths.Nodup) :
    (s.classify paths).values.flatten.Nodup := by
  have bucket {e : String × List String} (mem : e ∈ (s.classify paths).entries) :
      e.2 = paths.filter (s.typeOf? · = some e.1) := by
    rw [← files_classify, Classification.files, (Dict.mem_entries_iff _ e.1 e.2).1 mem, Option.getD_some]
  rw [List.nodup_flatten, Dict.values]
  constructor
  · intro list mem
    obtain ⟨e, inEntries, rfl⟩ := List.mem_map.1 mem
    rw [bucket inEntries]
    exact distinct.filter _
  · rw [List.pairwise_map]
    refine (s.classify paths).sorted.imp_of_mem fun {a b} memA memB lt path inA inB => ?_
    rw [bucket memA, List.mem_filter, decide_eq_true_eq] at inA
    rw [bucket memB, List.mem_filter, decide_eq_true_eq] at inB
    have same : a.1 = b.1 := Option.some.inj (inA.2.symm.trans inB.2)
    exact String.lt_irrefl _ (same ▸ lt)

end Selection

/-- **What is collected is what is eligible.** A path stands under a type if it is the path of a file
of the root, the options admit it and the type is that of such paths. No path stands there twice, those
of one type are in the order of their segments, there is a list for each extension that is taken and
one for configurations if XML is, and something is wrong just if nothing was found. -/
theorem collect_eligible (host : Host) (options : ScanOptions) (s : Selection)
    (accepted : Selection.ofOptions host options = .ok s) (scannable : host.IsScannable s.root) :
    let found := collect host s
    (∀ t path, path ∈ found.classification.files t ↔
      host.HasFile (normalizeAll Text.trim options.excludeDirs) s.root path ∧ options.Admits path ∧
        t = FileType.ofPath path) ∧
    found.classification.values.flatten.Nodup ∧
    (∀ t, (found.classification.files t).Pairwise fun p q => Path.segments p < Path.segments q) ∧
    (∀ t, t ∈ found.classification.types ↔
      options.AllowsExtension t ∨ t = FileType.di ∧ options.AllowsExtension FileType.xml) ∧
    (found.problems = [] ↔ 0 < found.classification.total) := by
  obtain ⟨paths, candidates, isCandidate, ordered⟩ := candidates_of_isScannable scannable
  have classified : (collect host s).classification = s.classify paths := by
    simp only [collect, candidates]
  have distinct : paths.Nodup := by
    refine ordered.imp fun {p q} lt eq => ?_
    subst eq
    exact List.lt_irrefl _ lt
  refine ⟨fun t path => ?_, ?_, fun t => ?_, fun t => ?_, ?_⟩
  · rw [classified, Selection.files_classify, List.mem_filter, decide_eq_true_eq, isCandidate,
      Selection.typeOf?_eq_some accepted, congrArg Selection.excludeDirs (Selection.ofOptions_eq_ok accepted)]
  · rw [classified]
    exact s.nodup_classify distinct
  · rw [classified, Selection.files_classify]
    exact ordered.filter _
  · rw [classified, Selection.mem_types_classify, Selection.HasType, Selection.mem_extensions accepted,
      Selection.mem_extensions accepted]
  · simp only [collect, candidates]
    split
    next none => simp [none]
    next some => simp [Nat.pos_of_ne_zero some]

/-- A tree with tests to leave out, two kinds of XML files, a link and an extension in capitals. -/
def mixedTree : List (String × Entry) := [
  ("Test", .dir [("Skip.php", .text "")]),
  ("etc", .dir [("di.xml", .text ""), ("module.xml", .text "")]),
  ("latest.js", .link "view.JS"),
  ("view.JS", .text "")]

def mixedTreeHost : Host where
  tree := .dir [("srv", .dir mixedTree)]
  cwd := "/"
  env := {}

def mixedTreeOptions : ScanOptions :=
  { root := "/srv/", excludeDirs := [" Test "], extensions := [".XML", "js", "php"] }

def mixedTreeSelection : Selection where
  root := "/srv"
  extensions := ["js", "php", "xml"]
  excludeDirs := ["Test"]
  excludeFiles := []
  excludePaths := []
  fixableOnly := false

theorem collect_eligible_mixedTree :
    Selection.ofOptions mixedTreeHost mixedTreeOptions = .ok mixedTreeSelection ∧
    mixedTreeHost.IsScannable "/srv" ∧
    let c := (collect mixedTreeHost mixedTreeSelection).classification
    "/srv/etc/di.xml" ∈ c.files "di" ∧ "/srv/etc/module.xml" ∈ c.files "xml" ∧
      "/srv/view.JS" ∈ c.files "js" ∧ "phtml" ∉ c.types ∧ c.values.flatten.Nodup := by
  have accepted : Selection.ofOptions mixedTreeHost mixedTreeOptions = .ok mixedTreeSelection := by rfl
  have placed : mixedTreeHost.linkAt "/srv" = .ok (.dir mixedTree) :=
    @Host.linkAt_names mixedTreeHost ["srv"] mixedTree rfl (by decide) (by decide) (by decide) (by decide)
  have proper : Entry.ProperIn mixedTree := by
    simp only [mixedTree, Entry.ProperIn, Entry.Proper, Entry.text]
    decide
  have scannable : mixedTreeHost.IsScannable "/srv" := .inl ⟨mixedTree, placed, proper⟩
  obtain ⟨mem, nodup, _, types, _⟩ :=
    collect_eligible mixedTreeHost mixedTreeOptions mixedTreeSelection accepted scannable
  -- capital letters are looked up in a table, which the kernel does faster
  have kept (path : String) (t : String) (there : mixedTreeHost.HasFile ["Test"] "/srv" path)
      (ext : mixedTreeOptions.AllowsExtension (Path.extension path)) (kind : t = FileType.ofPath path) :
      path ∈ (collect mixedTreeHost mixedTreeSelection).classification.files t :=
    (mem t path).2 ⟨there, ⟨ext, List.not_mem_nil, List.not_mem_nil⟩, kind⟩
  refine ⟨accepted, scannable, kept _ _ ?_ (by decide +kernel) (by decide +kernel),
    kept _ _ ?_ (by decide +kernel) (by decide +kernel),
    kept _ _ ?_ (by decide +kernel) (by decide +kernel), ?_, nodup⟩
  · exact .inr ⟨mixedTree, ["etc", "di.xml"], _, placed, rfl, by decide, by decide⟩
  · exact .inr ⟨mixedTree, ["etc", "module.xml"], _, placed, rfl, by decide, by decide⟩
  · exact .inr ⟨mixedTree, ["view.JS"], _, placed, rfl, by decide, by decide⟩
  · rw [types]
    decide

end ShopLint
