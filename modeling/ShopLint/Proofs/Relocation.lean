import ShopLint.Proofs.Collection.Eligibility
import ShopLint.Proofs.Relocation.Plain
import ShopLint.Proofs.Relocation.Report
import Mathlib.Data.List.Nodup

/-!
Scans of one tree at two places. What a scan reports depends on where the tree stands only through
what the rules ask about the paths of its files; when the answers are the same, so are the reports, up
to the place. The tree must leave nothing to the order of imports, which is up to each machine.
-/

namespace ShopLint

/-- Neither what the options leave out by its full path nor the length of a path tells the files
apart. -/
structure Path.SameLimits (excludePaths : List String) (p q : String) : Prop where
  excluded : p ∈ excludePaths ↔ q ∈ excludePaths
  short : p.utf8ByteSize < 4096 ↔ q.utf8ByteSize < 4096

section

variable {host₁ host₂ : Host} {root₁ root₂ : String} {entries : List (String × Entry)}

theorem Entry.SameFile.base (proper : Entry.ProperIn entries) {p q : String}
    (h : (Entry.dir entries).SameFile root₁ root₂ p q) : Path.base p = Path.base q := by
  obtain ⟨names, content, found, rfl, rfl⟩ := h
  have nonempty := Entry.ne_nil_of_at?_file found
  rw [Path.base_below root₁ nonempty (proper.of_at? found).1,
    Path.base_below root₂ nonempty (proper.of_at? found).1]

/-- The same bytes are read at both places, when the paths are short enough at both or at none. -/
theorem Entry.SameFile.bytes (proper : Entry.ProperIn entries)
    (first : host₁.linkAt root₁ = .ok (.dir entries))
    (second : host₂.linkAt root₂ = .ok (.dir entries))
    {p q : String} (h : (Entry.dir entries).SameFile root₁ root₂ p q)
    (short : p.utf8ByteSize < 4096 ↔ q.utf8ByteSize < 4096) :
    (host₁.bytes p).toOption = (host₂.bytes q).toOption := by
  obtain ⟨names, content, found, rfl, rfl⟩ := h
  have nonempty := Entry.ne_nil_of_at?_file found
  have properNames := (proper.of_at? found).1
  simp only [Host.bytes_below first proper found, Host.bytes_below second proper found,
    Host.takes_below first nonempty properNames, Host.takes_below second nonempty properNames, short]

/-- The files of a tree at two places at which they look alike. -/
theorem relocates_of_alike (sorted₁ : host₁.order = fun _ => .sorted)
    (sorted₂ : host₂.order = fun _ => .sorted) (proper : Entry.ProperIn entries)
    (first : host₁.linkAt root₁ = .ok (.dir entries))
    (second : host₂.linkAt root₂ = .ok (.dir entries))
    (outside : Path.OutsideSetup root₁ ∧ Path.OutsideSetup root₂)
    (alike : ∀ {p q}, (Entry.dir entries).SameFile root₁ root₂ p q →
      (p.utf8ByteSize < 4096 ↔ q.utf8ByteSize < 4096) ∧ Path.Alike p q) :
    Relocates host₁ host₂ ((Entry.dir entries).SameFile root₁ root₂) where
  sorted₁ := sorted₁
  sorted₂ := sorted₂
  unique := Entry.SameFile.biUnique proper
  bytes h := h.bytes proper first second (alike h).1
  base h := h.base proper
  minified := by
    rintro p q ⟨names, content, found, rfl, rfl⟩
    have nonempty := Entry.ne_nil_of_at?_file found
    rw [Path.endsWith_below root₁ nonempty (by decide),
      Path.endsWith_below root₂ nonempty (by decide)]
  setup := by
    rintro p q ⟨names, content, found, rfl, rfl⟩
    have nonempty := Entry.ne_nil_of_at?_file found
    have properNames := (proper.of_at? found).1
    rw [Path.isSetupPath_below nonempty properNames outside.1,
      Path.isSetupPath_below nonempty properNames outside.2]
  alike h := (alike h).2

end

/-! Trees that leave nothing to the order of imports -/

/-- No name that a source file of the tree looks up among its imports is ambiguous. -/
def Entry.Settled (tree : Entry) : Prop :=
  ∀ names bytes, tree.at? names = some (.file bytes) →
    FileType.ofPath (Path.below "/" names) = FileType.php →
      Php.Settled (Utf8.decode Utf8.replacement bytes).toList

theorem Php.settled_nil : Settled [] :=
  settled_of_distinct (by decide)

namespace Selection

theorem ofPath_of_typeOf? {s : Selection} {path fileType : String}
    (h : s.typeOf? path = some fileType) : FileType.ofPath path = fileType := by
  simp only [typeOf?, Bool.and_eq_true, decide_eq_true_eq] at h
  split at h
  · cases h
  · rw [FileType.ofPath]
    split at h
    next di => exact (if_pos di).trans (Option.some.inj h)
    next other => exact (if_neg other).trans (Option.some.inj h)

/-- So are the source files that are collected from such a tree, wherever it stands. -/
theorem settled_of_mem_collect {host : Host} {s : Selection} {entries : List (String × Entry)}
    (proper : Entry.ProperIn entries) (found : host.linkAt s.root = .ok (.dir entries))
    (settled : (Entry.dir entries).Settled) :
    ∀ path ∈ (collect host s).classification.files FileType.php, host.Settled path := by
  intro path collected
  have typed := ofPath_of_typeOf? (mem_collect collected)
  rw [collect_of_linkAt found, files_classify] at collected
  obtain ⟨names, bytes, isFile, rfl, -⟩ : (Entry.dir entries).SameFile s.root s.root path path :=
    List.forall₂_same.1 (Entry.sameFile_walk proper s.excludesDir) path (List.mem_filter.1 collected).1
  have nonempty := Entry.ne_nil_of_at?_file isFile
  have properNames := (proper.of_at? isFile).1
  have sameType : FileType.ofPath (Path.below "/" names) = FileType.php := by
    simp only [FileType.ofPath, Path.extension, Path.base_below _ nonempty properNames] at typed ⊢
    exact typed
  have read := Host.bytes_below found proper isFile
  rw [Host.Settled, Host.readOrEmpty, Host.read]
  -- a file that is not read counts as empty
  cases outcome : host.bytes (Path.below s.root names) with
  | error _ => exact Php.settled_nil
  | ok content =>
    rw [outcome, Except.toOption, eq_comm, Option.ite_none_right_eq_some, Option.some.injEq] at read
    obtain ⟨-, rfl⟩ := read
    exact settled names bytes isFile sameType

end Selection

namespace Selection

theorem typeOf?_rootedAt (s : Selection) {p q : String} (base : Path.base p = Path.base q)
    (excluded : p ∈ s.excludePaths ↔ q ∈ s.excludePaths) (root₁ root₂ : String) :
    (s.rootedAt root₁).typeOf? p = (s.rootedAt root₂).typeOf? q := by
  have same : s.excludesPath p = s.excludesPath q := decide_eq_decide.2 excluded
  show s.typeOf? p = s.typeOf? q
  simp only [typeOf?, base, same]

/-- What is collected from a tree at two places at which the files have the same type. -/
theorem collect_moved {host₁ host₂ : Host} {root₁ root₂ : String} {entries : List (String × Entry)}
    (s : Selection) (proper : Entry.ProperIn entries)
    (first : host₁.linkAt root₁ = .ok (.dir entries))
    (second : host₂.linkAt root₂ = .ok (.dir entries))
    (excluded : ∀ {p q}, (Entry.dir entries).SameFile root₁ root₂ p q →
      (p ∈ s.excludePaths ↔ q ∈ s.excludePaths)) :
    (collect host₁ (s.rootedAt root₁)).classification.Moved ((Entry.dir entries).SameFile root₁ root₂)
      (collect host₂ (s.rootedAt root₂)).classification := by
  rw [@collect_of_linkAt host₁ (s.rootedAt root₁) entries first,
    @collect_of_linkAt host₂ (s.rootedAt root₂) entries second]
  exact classify_moved rfl (Entry.sameFile_walk proper s.excludesDir)
    fun same => s.typeOf?_rootedAt (same.base proper) (excluded same) root₁ root₂

end Selection

namespace ScanContext

/-- **Reports do not depend on where a tree stands**, up to the place, when the rules get the same
answers about the paths of its files and no directory above it is named like those of setup scripts. The
answers are the same when both places are plain: then no directory above the tree has a name that rules go
by, and the two names right above it are the same. Imports may be gone through in any orders, at either
place, as no name that the tree looks up there is ambiguous. -/
theorem scan_relocates (c : ScanContext) (bundled : c.registry = .default) (host₁ host₂ : Host)
    (options : ScanOptions) (given₁ given₂ root₁ root₂ : String) (entries : List (String × Entry))
    (proper : (Entry.dir entries).Proper) (settled : (Entry.dir entries).Settled)
    (first : host₁.Places given₁ root₁ (.dir entries))
    (second : host₂.Places given₂ root₂ (.dir entries))
    (limits : ∀ names content, (Entry.dir entries).at? names = some (.file content) →
      Path.SameLimits (normalizeAll Text.trim options.excludePaths)
        (Path.below root₁ names) (Path.below root₂ names))
    (outside : Path.OutsideSetup root₁ ∧ Path.OutsideSetup root₂)
    (standing : Path.Plain root₁ root₂ ∨
      ∀ names content, (Entry.dir entries).at? names = some (.file content) →
        Path.Alike (Path.below root₁ names) (Path.below root₂ names)) :
    ∃ result₁ result₂,
      c.scan host₁ { options with root := given₁ } = .ok result₁ ∧
      c.scan host₂ { options with root := given₂ } = .ok result₂ ∧
      result₁.report.ids = result₂.report.ids ∧
      List.Forall₂ (Finding.Moved ((Entry.dir entries).SameFile root₁ root₂))
        result₁.report.rules result₂.report.rules := by
  have alike : ∀ {p q}, (Entry.dir entries).SameFile root₁ root₂ p q →
      Path.SameLimits (normalizeAll Text.trim options.excludePaths) p q ∧ Path.Alike p q := by
    rintro p q ⟨names, content, found, rfl, rfl⟩
    refine ⟨limits names content found, ?_⟩
    rcases standing with plain | alike
    · exact plain.alike (Entry.ne_nil_of_at?_file found) (proper.of_at? found).1
    · exact alike names content found
  have relocates := @relocates_of_alike (host₁.reordered fun _ => .sorted)
    (host₂.reordered fun _ => .sorted) root₁ root₂ entries rfl rfl proper first.found second.found outside
    fun same => ⟨(alike same).1.short, (alike same).2⟩
  have files := (c.unrooted options).collect_moved proper first.found second.found
    fun same => (alike same).1.excluded
  have moved := scanSelection_moved bundled relocates (by rfl) files
    (Selection.settled_of_mem_collect proper first.found settled)
  exact ⟨_, _, c.scan_of_resolved first.named first.resolved,
    c.scan_of_resolved second.named second.resolved, moved.keys_eq, moved.values⟩

/-- A model that runs a query of its own. -/
def queryFile : String := "<?php\n$db->query($sql);\n"

def queryTree : List (String × Entry) := [("Model", .dir [("Report.php", .text queryFile)])]

/-- A host with the tree below three directories. -/
def queryHost (top vendor package : String) : Host where
  tree := .dir [(top, .dir [(vendor, .dir [(package, .dir queryTree)])])]
  cwd := "/"
  env := {}

theorem queryTree_proper : Entry.ProperIn queryTree := by
  simp only [queryTree, Entry.ProperIn, Entry.Proper, Entry.text]
  decide

theorem queryHost_places {top vendor package root : String}
    (isRoot : Path.below "/" [top, vendor, package] = root) (clean : Path.absolute "/" root = root)
    (given : Text.trim root ≠ "" ∧ ¬Text.startsWith root "~/" = true) (takes : Host.Takes root)
    (names : ∀ n ∈ [top, vendor, package], Path.IsProper n ∧ n.utf8ByteSize ≤ 255) :
    (queryHost top vendor package).Places root root (.dir queryTree) := by
  refine ⟨given.1, ?_, ?_⟩
  · have same : Path.absolute (queryHost top vendor package).cwd root = root := clean
    simp only [Host.absolute, Host.expand?, if_neg given.2, same]
  · subst isRoot
    apply Host.linkAt_names _ (List.cons_ne_nil _ _) (fun n mem => (names n mem).1)
      (fun n mem => (names n mem).2) takes
    simp [queryHost, Entry.at?, Entry.entries]

theorem queryTree_files {names : List String} {bytes : List UInt8}
    (h : (Entry.dir queryTree).at? names = some (.file bytes)) :
    names = ["Model", "Report.php"] ∧ bytes = Utf8.encode queryFile := by
  cases names with
  | nil => cases h
  | cons first names =>
    by_cases model : first = "Model"
    · subst model
      cases names with
      | nil => cases h
      | cons second names =>
        by_cases report : second = "Report.php"
        · subst report
          cases names with
          | nil =>
            cases h
            exact ⟨rfl, rfl⟩
          | cons third names => cases h
        · simp [Entry.at?, queryTree, Entry.entries, List.lookup_cons, beq_false_of_ne report] at h
    · simp [Entry.at?, queryTree, Entry.entries, List.lookup_cons, beq_false_of_ne model] at h

/-- The model has no imports at all. -/
theorem queryTree_settled : (Entry.dir queryTree).Settled := by
  intro names bytes found _
  rw [(queryTree_files found).2, Utf8.decode_encode]
  exact Php.settled_of_distinct (by decide)

theorem scan_relocates_queryTree :
    (Entry.dir queryTree).Settled ∧ Path.Plain "/srv/www/shop" "/mnt/www/shop" ∧
    Path.OutsideSetup "/srv/www/shop" ∧ Path.OutsideSetup "/mnt/www/shop" ∧
    ∃ result₁ result₂,
      ({} : ScanContext).scan (queryHost "srv" "www" "shop") { root := "/srv/www/shop" } =
        .ok result₁ ∧
      ({} : ScanContext).scan (queryHost "mnt" "www" "shop") { root := "/mnt/www/shop" } =
        .ok result₂ ∧
      result₁.report.ids = result₂.report.ids ∧
      List.Forall₂
        (Finding.Moved ((Entry.dir queryTree).SameFile "/srv/www/shop" "/mnt/www/shop"))
        result₁.report.rules result₂.report.rules := by
  have plain : Path.Plain "/srv/www/shop" "/mnt/www/shop" := ⟨by decide, by decide, by decide⟩
  have outside : Path.OutsideSetup "/srv/www/shop" ∧ Path.OutsideSetup "/mnt/www/shop" := by decide
  refine ⟨queryTree_settled, plain, outside.1, outside.2, scan_relocates {} rfl _ _ {} _ _ _ _ queryTree
    queryTree_proper queryTree_settled
    (queryHost_places (by decide) (by decide) (by decide) (by decide) (by decide))
    (queryHost_places (by decide) (by decide) (by decide) (by decide) (by decide)) ?_ outside (.inl plain)⟩
  intro names content found
  rw [(queryTree_files found).1]
  exact ⟨by decide, by decide⟩

/-- The selection of a scan of the tree. -/
def querySelection (root : String) : Selection :=
  (({} : ScanContext).unrooted { root := root }).rootedAt root

theorem scan_queryTree {host : Host} {root : String} (h : host.Places root root (.dir queryTree)) :
    ({} : ScanContext).scan host { root := root } =
      .ok (({} : ScanContext).scanSelection host (querySelection root)) :=
  scan_of_resolved {} h.named h.resolved

/-- The one finding about SQL in a scan of the tree, whose message names the module of the file. -/
theorem queryTree_finding {host : Host} {root path message : String}
    (found : host.linkAt root = .ok (.dir queryTree))
    (isPath : Path.below root ["Model", "Report.php"] = path) (takes : Host.Takes path)
    (collected : ((querySelection root).classify
        (filesIn (querySelection root).excludesDir root queryTree)).files FileType.php = [path])
    (outsideSetup : Module.isSetupPath path = false)
    (inspected : RawSql.inspectFile ⟨path, queryFile.toList⟩ = [occurrenceAt path 2 .warning message])
    (f : Finding) :
    f ∈ (({} : ScanContext).scanSelection host (querySelection root)).report.rules ∧
        f.ruleId = RawSql.rule.id ↔
      f = RawSql.rule.finding [occurrenceAt path 2 .warning message] := by
  have files : (collect host (querySelection root)).classification.files FileType.php = [path] := by
    rw [@collect_of_linkAt host (querySelection root) queryTree found]
    exact collected
  have loaded : loadAll host [path] = [⟨path, queryFile.toList⟩] := by
    subst isPath
    exact Host.loadAll_below found queryTree_proper rfl takes (by decide) (by decide)
  have alone : RawSql.rule.alone host (collect host (querySelection root)).classification =
      [occurrenceAt path 2 .warning message] := by
    show RawSql.find host _ = _
    simp only [RawSql.find, files, List.filter_cons, outsideSetup, Bool.not_false, if_true,
      List.filter_nil, loaded, List.flatMap_singleton, inspected]
  have runs : RawSql.rule ∈ runnable (collect host (querySelection root)).classification
      (({} : ScanContext).dispatchOptions (querySelection root)) := by
    refine mem_runnable.2 ⟨by simp [Registry.bundled], nofun, ?_⟩
    show (!(Classification.files _ FileType.php).isEmpty) = true
    rw [files]
    rfl
  rw [mem_rules_bundled rfl]
  constructor
  · rintro ⟨⟨r, mem, _, rfl⟩, id⟩
    obtain rfl : r = RawSql.rule := List.inj_on_of_nodup_map Registry.ids_bundled_nodup
      (mem_runnable.1 mem).1 (mem_runnable.1 runs).1 id
    rw [alone]
  · rintro rfl
    refine ⟨⟨RawSql.rule, runs, ?_, ?_⟩, rfl⟩
    · rw [alone]
      exact List.cons_ne_nil _ _
    · rw [alone]

/-- The place does matter in general: the model belongs to the module that the two directories above
it name, and the message says so. -/
theorem scan_names_directories_above :
    (queryHost "srv" "acme" "shop").Places "/srv/acme/shop" "/srv/acme/shop" (.dir queryTree) ∧
    (queryHost "srv" "beta" "store").Places "/srv/beta/store" "/srv/beta/store" (.dir queryTree) ∧
    ∃ result₁ result₂,
      ({} : ScanContext).scan (queryHost "srv" "acme" "shop") { root := "/srv/acme/shop" } =
        .ok result₁ ∧
      ({} : ScanContext).scan (queryHost "srv" "beta" "store") { root := "/srv/beta/store" } =
        .ok result₂ ∧
      ¬List.Forall₂
        (Finding.Moved ((Entry.dir queryTree).SameFile "/srv/acme/shop" "/srv/beta/store"))
        result₁.report.rules result₂.report.rules := by
  have first : (queryHost "srv" "acme" "shop").Places "/srv/acme/shop" "/srv/acme/shop" _ :=
    queryHost_places (by decide) (by decide) (by decide) (by decide) (by decide)
  have second : (queryHost "srv" "beta" "store").Places "/srv/beta/store" "/srv/beta/store" _ :=
    queryHost_places (by decide) (by decide) (by decide) (by decide) (by decide)
  refine ⟨first, second, _, _, scan_queryTree first, scan_queryTree second, fun moved => ?_⟩
  have acme := @queryTree_finding _ _ "/srv/acme/shop/Model/Report.php"
    "raw SQL in module acme_shop; use the resource model select builder or a repository"
    first.found rfl (by decide) (by decide) (by decide) rfl
  have beta := @queryTree_finding _ _ "/srv/beta/store/Model/Report.php"
    "raw SQL in module beta_store; use the resource model select builder or a repository"
    second.found rfl (by decide) (by decide) (by decide) rfl
  obtain ⟨g, listed, same⟩ := forall₂_partner moved ((acme _).2 rfl).1
  obtain rfl := (beta g).1 ⟨listed, same.ruleId.symm⟩
  cases same.occurrences with
  | cons occurrence _ =>
    rcases occurrence.message with eq | ⟨before, after, eq, _⟩
    · exact absurd eq (by decide)
    · -- the message does not hold the path of its file
      have slash : '/' ∈ (before ++ "/srv/acme/shop/Model/Report.php" ++ after).toList := by simp
      rw [← show _ = before ++ "/srv/acme/shop/Model/Report.php" ++ after from eq] at slash
      exact absurd slash (by decide)

end ScanContext

end ShopLint
