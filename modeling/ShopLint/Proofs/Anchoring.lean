import ShopLint.Proofs.Collection
import ShopLint.Proofs.Completion
import ShopLint.Proofs.Fingerprint
import ShopLint.Proofs.Php.Position
import ShopLint.Proofs.Placement
import ShopLint.Proofs.Text.Utf8
import ShopLint.Report.Sarif

/-!
Occurrences are anchored: each stands in a file that was collected, on lines that the file has. Every
rule has its own way to a line number (a loop over lines, a search with a fallback, the place of a
parameter, a counted block, a pairing of lines with elements), and each is within the file. So every
result of a log has a fingerprint of its lines.
-/

namespace ShopLint

/-- The occurrence is in the file, on lines that it has. -/
def Occurrence.Within (o : Occurrence) (src : SourceFile) : Prop :=
  o.file = src.path ∧ 1 ≤ o.startLine ∧ o.startLine ≤ o.endLine ∧
    o.endLine ≤ (linesOf src.text).length

theorem occurrenceAt_within {src : SourceFile} {line : Nat} (severity : Severity) (message : String)
    (h : line ≤ (linesOf src.text).length) :
    (occurrenceAt src.path line severity message).Within src := by
  have some : 1 ≤ (linesOf src.text).length := by simp
  refine ⟨rfl, ?_, ?_, ?_⟩
  · simp only [occurrenceAt]
    omega
  · simp only [occurrenceAt]
    omega
  · simp only [occurrenceAt]
    omega

theorem mem_numbered_le {src : SourceFile} {n : Nat} {line : List Char}
    (h : (n, line) ∈ numbered src.lines) : n ≤ (linesOf src.text).length := by
  obtain ⟨before, after, eq, rfl⟩ := mem_numbered h
  have length := congrArg List.length eq
  simp only [SourceFile.lines, List.length_append, List.length_cons] at length
  omega

theorem mem_lines_le {src : SourceFile} {p : List Char → Bool} {n : Nat}
    (h : n ∈ numbersFrom 1 p src.lines) : n ≤ (linesOf src.text).length := by
  have := mem_numbersFrom h
  simp only [SourceFile.lines] at this
  omega

theorem params_line_le {orders : Nat → Dict.Listing String} {source : List Char} {p : Php.Param}
    (h : p ∈ ((Php.constructorOf orders source).map Php.Constructor.params).getD []) :
    p.line ≤ (linesOf source).length := by
  cases found : Php.constructorOf orders source with
  | none => simp [found] at h
  | some ctor =>
    simp only [found, Option.map_some, Option.getD_some] at h
    exact Php.constructorOf_line_le found h

/-! What each rule finds in a file -/

theorem AroundPlugin.ofLine_within {src : SourceFile} {p : Nat × List Char} {o : Occurrence}
    (numberedLine : p ∈ numbered src.lines) (h : ofLine src p = some o) : o.Within src := by
  obtain ⟨n, line⟩ := p
  obtain ⟨method, seen, found⟩ := Option.bind_eq_some_iff.1 h
  obtain ⟨block, at_, start, lower, upper⟩ := functionAt_of_aroundMethod? numberedLine seen
  obtain ⟨before, after, _, positive⟩ := mem_numbered numberedLine
  simp only [inspect, at_] at found
  split at found
  · simp [Except.toOption] at found
  · simp only [Except.toOption, Option.join_some, Option.some.injEq] at found
    subst found
    simp only [SourceFile.lines] at upper
    refine ⟨rfl, ?_, ?_, ?_⟩
    · simp only [occurrenceAt]
      omega
    · simp only [occurrenceAt]
      omega
    · simp only
      omega

theorem AreaScope.inspectFile_within {src : SourceFile} {o : Occurrence} (h : o ∈ inspectFile src) :
    o.Within src := by
  have checked {kind className : String} (found : check src kind className = some o) :
      o.Within src := by
    simp only [check] at found
    split at found
    · simp at found
    · obtain ⟨area, _, rfl⟩ := Option.map_eq_some_iff.1 found
      exact occurrenceAt_within _ _ (findLine_le _ _)
  simp only [inspectFile] at h
  split at h
  · simp at h
  · rcases List.mem_append.1 h with mem | mem
    · obtain ⟨_, _, found⟩ := List.mem_filterMap.1 mem
      exact checked found
    · obtain ⟨_, _, found⟩ := List.mem_filterMap.1 mem
      exact checked found

theorem ProxyRequired.inspectFile_within {host : Host} {proxied : List Proxied} {turn : Nat}
    {src : SourceFile} {o : Occurrence} (h : o ∈ inspectFile host proxied turn src) : o.Within src := by
  simp only [inspectFile] at h
  split at h
  · simp at h
  · split at h
    · simp at h
    next ctor found =>
      obtain ⟨p, mem, rfl⟩ := List.mem_map.1 h
      have line := Php.constructorOf_line_le found (List.mem_filter.1 mem).1
      exact occurrenceAt_within .warning "" line

theorem ObjectManager.inspectFile_within {orders : Nat → Dict.Listing String} {src : SourceFile}
    {o : Occurrence} (h : o ∈ inspectFile orders src) : o.Within src := by
  simp only [inspectFile] at h
  split at h
  · simp at h
  · rcases List.mem_append.1 h with mem | mem
    · obtain ⟨line, found, rfl⟩ := List.mem_map.1 mem
      exact occurrenceAt_within _ _ (mem_findAllLines found).2
    · obtain ⟨p, found, rfl⟩ := List.mem_map.1 mem
      exact occurrenceAt_within _ _ (params_line_le (List.mem_filter.1 found).1)

theorem CoreInheritance.inspectFile_within {index : ClassIndex} {src : SourceFile} {o : Occurrence}
    (h : inspectFile index src = some o) : o.Within src := by
  simp only [inspectFile, Option.bind_eq_bind] at h
  obtain ⟨decl, found, h⟩ := Option.bind_eq_some_iff.1 h
  split at h
  · simp at h
  · obtain ⟨parent, _, h⟩ := Option.bind_eq_some_iff.1 h
    split at h
    · simp at h
    · simp only [Option.pure_def, Option.some.injEq] at h
      subst h
      exact occurrenceAt_within _ _ (Php.classOf_line_le found)

theorem DeprecatedJquery.inspectFile_within {src : SourceFile} {o : Occurrence}
    (h : o ∈ inspectFile src) : o.Within src := by
  obtain ⟨⟨n, line⟩, numberedLine, mem⟩ := List.mem_flatMap.1 h
  obtain ⟨_, _, rfl⟩ := List.mem_map.1 mem
  exact occurrenceAt_within _ _ (mem_numbered_le numberedLine)

theorem LayoutCache.inspectFile_within {src : SourceFile} {o : Occurrence} (h : o ∈ inspectFile src) :
    o.Within src := by
  simp only [inspectFile] at h
  split at h
  · simp at h
  · obtain ⟨⟨i, e⟩, _, rfl⟩ := List.mem_map.1 h
    apply occurrenceAt_within
    -- an element without a line of its own is on the first
    rw [List.getD_eq_getElem?_getD]
    cases found : (disabledLines src)[i]? with
    | none => simp
    | some n => exact mem_lines_le (List.mem_of_getElem? found)

theorem TemplateOutput.inspectFile_within {src : SourceFile} {o : Occurrence}
    (h : o ∈ inspectFile src) : o.Within src := by
  obtain ⟨⟨n, line⟩, numberedLine, mem⟩ := List.mem_flatMap.1 h
  obtain ⟨_, _, rfl⟩ := List.mem_map.1 mem
  exact occurrenceAt_within _ _ (mem_numbered_le numberedLine)

theorem RawSql.inspectFile_within {src : SourceFile} {o : Occurrence} (h : o ∈ inspectFile src) :
    o.Within src := by
  obtain ⟨n, found, rfl⟩ := List.mem_map.1 h
  exact occurrenceAt_within _ _ (mem_lines_le found)

theorem RepositoryUse.inspectFile_within {host : Host} {index : ClassIndex} {turn : Nat}
    {src : SourceFile} {o : Occurrence} (h : o ∈ inspectFile host index turn src) : o.Within src := by
  simp only [inspectFile] at h
  split at h
  · simp at h
  · split at h
    · simp at h
    next ctor found =>
      obtain ⟨place, bound, rfl⟩ := List.mem_mapIdx.1 h
      have mem := (List.mem_filter.1 (List.getElem_mem bound)).1
      exact occurrenceAt_within _ _ (Php.constructorOf_line_le found mem)

/-! From files to scans -/

theorem mem_loadWith {read : String → Except FileError String} {paths : List String}
    {src : SourceFile} (h : src ∈ loadWith read paths) :
    src.path ∈ paths ∧ ∃ content, read src.path = .ok content ∧ src.text = content.toList := by
  obtain ⟨path, mem, loaded⟩ := List.mem_filterMap.1 h
  split at loaded
  next content readable =>
    split at loaded
    · cases loaded
    · cases loaded
      exact ⟨mem, content, readable, rfl⟩
  next => cases loaded

theorem mem_inspectEach {inspect : Nat → SourceFile → List Occurrence} {sources : List SourceFile}
    {o : Occurrence} (h : o ∈ inspectEach inspect sources) :
    ∃ src ∈ sources, ∃ turn, o ∈ inspect turn src := by
  obtain ⟨found, inEach, mem⟩ := List.mem_flatten.1 h
  obtain ⟨turn, bound, rfl⟩ := List.mem_mapIdx.1 inEach
  exact ⟨_, List.getElem_mem bound, turn, mem⟩

/-- A file has as many lines when it is read as a document. -/
theorem Host.read_of_readDocument {host : Host} {path document : String}
    (h : host.readDocument path = .ok document) :
    ∃ content, host.read path = .ok content ∧
      (linesOf content.toList).length = (linesOf document.toList).length := by
  cases found : host.bytes path with
  | error cause => simp [readDocument, found, Except.map] at h
  | ok bytes =>
    simp only [readDocument, found, Except.map, Except.ok.injEq] at h
    subst h
    refine ⟨Utf8.decode Utf8.replacement bytes, ?_, ?_⟩
    · simp only [read, found, Except.map]
    · have noLine : Utf8.replacement ≠ '\n' ∧ Utf8.noncharacter ≠ '\n' := by decide
      rw [length_linesOf, length_linesOf, Utf8.count_decode noLine.1 noLine.2]

/-- The occurrence is in a collected file, on lines that the file has. -/
def Occurrence.Anchored (o : Occurrence) (host : Host) (files : Classification) : Prop :=
  (∃ fileType, o.file ∈ files.files fileType) ∧
    ∃ content, host.read o.file = .ok content ∧ 1 ≤ o.startLine ∧ o.startLine ≤ o.endLine ∧
      o.endLine ≤ (linesOf content.toList).length

section

variable {o : Occurrence} {src : SourceFile} {host : Host} {files : Classification} {fileType : String}
  {paths : List String}

theorem Occurrence.Within.anchored_of_read (h : o.Within src) {content : String}
    (collected : src.path ∈ files.files fileType) (readable : host.read src.path = .ok content)
    (lines : (linesOf content.toList).length = (linesOf src.text).length) : o.Anchored host files := by
  obtain ⟨file, lower, order, upper⟩ := h
  exact ⟨⟨fileType, file ▸ collected⟩, content, file ▸ readable, lower, order, lines ▸ upper⟩

variable (h : o.Within src) (collected : ∀ path ∈ paths, path ∈ files.files fileType)

include h collected

theorem Occurrence.Within.anchored (loaded : src ∈ loadAll host paths) : o.Anchored host files := by
  obtain ⟨inPaths, content, readable, text⟩ := mem_loadWith loaded
  exact h.anchored_of_read (collected _ inPaths) readable (by rw [text])

theorem Occurrence.Within.anchored_document (loaded : src ∈ loadDocuments host paths) :
    o.Anchored host files := by
  obtain ⟨inPaths, document, readable, text⟩ := mem_loadWith loaded
  obtain ⟨content, asText, lines⟩ := Host.read_of_readDocument readable
  exact h.anchored_of_read (collected _ inPaths) asText (by rw [lines, text])

end

/-- What a bundled rule finds is anchored. -/
theorem Registry.bundled_anchored (host : Host) (files : Classification) :
    ∀ r ∈ bundled, ∀ o ∈ r.alone host files, o.Anchored host files := by
  intro r mem o found
  simp only [bundled, List.mem_cons, List.not_mem_nil, or_false] at mem
  rcases mem with rfl | rfl | rfl | rfl | rfl | rfl | rfl | rfl | rfl | rfl
  · rw [AroundPlugin.alone_eq] at found
    obtain ⟨src, loaded, inFile⟩ := List.mem_flatMap.1 found
    obtain ⟨line, numberedLine, seen⟩ := List.mem_filterMap.1 inFile
    exact (AroundPlugin.ofLine_within numberedLine seen).anchored (fun _ => List.mem_of_mem_filter) loaded
  · obtain ⟨src, loaded, inFile⟩ := List.mem_flatMap.1 found
    exact (AreaScope.inspectFile_within inFile).anchored_document
      (fun _ => List.mem_of_mem_filter) loaded
  · obtain ⟨src, loaded, turn, inFile⟩ := mem_inspectEach found
    exact (ProxyRequired.inspectFile_within inFile).anchored (fun _ mem => mem) loaded
  · obtain ⟨src, loaded, turn, inFile⟩ := mem_inspectEach found
    exact (ObjectManager.inspectFile_within inFile).anchored (fun _ => List.mem_of_mem_filter) loaded
  · obtain ⟨src, loaded, inFile⟩ := List.mem_filterMap.1 found
    exact (CoreInheritance.inspectFile_within inFile).anchored (fun _ mem => mem) loaded
  · obtain ⟨src, loaded, inFile⟩ := List.mem_flatMap.1 found
    exact (DeprecatedJquery.inspectFile_within inFile).anchored (fun _ => List.mem_of_mem_filter) loaded
  · obtain ⟨src, loaded, inFile⟩ := List.mem_flatMap.1 found
    exact (LayoutCache.inspectFile_within inFile).anchored_document
      (fun _ => List.mem_of_mem_filter) loaded
  · obtain ⟨src, loaded, inFile⟩ := List.mem_flatMap.1 found
    exact (TemplateOutput.inspectFile_within inFile).anchored (fun _ mem => mem) loaded
  · obtain ⟨src, loaded, inFile⟩ := List.mem_flatMap.1 found
    exact (RawSql.inspectFile_within inFile).anchored (fun _ => List.mem_of_mem_filter) loaded
  · obtain ⟨src, loaded, turn, inFile⟩ := mem_inspectEach found
    exact (RepositoryUse.inspectFile_within inFile).anchored (fun _ => List.mem_of_mem_filter) loaded

theorem Occurrence.Anchored.normalize_eq {o : Occurrence} {host : Host} {files : Classification}
    (h : o.Anchored host files) : o.normalize = o := by
  obtain ⟨_, _, _, _, order, _⟩ := h
  simp only [normalize, if_neg (Int.not_lt.2 order)]

/-- What a scan with the bundled rules reports is anchored. -/
theorem ScanContext.scanSelection_anchored {c : ScanContext} (bundled : c.registry = .default)
    {host : Host} {s : Selection} {f : Finding} {o : Occurrence}
    (listed : f ∈ (c.scanSelection host s).report.rules) (found : o ∈ f.occurrences) :
    o.Anchored host (collect host s).classification := by
  obtain ⟨r, mem, _, rfl⟩ := (mem_rules_bundled bundled).1 listed
  obtain ⟨raw, inRule, rfl⟩ := List.mem_map.1 found
  have anchored := Registry.bundled_anchored host _ r (mem_runnable.1 mem).1 raw inRule
  rw [anchored.normalize_eq]
  exact anchored

namespace Sarif

theorem mem_resultsFrom {host : Host} {index : Nat} {findings : List Finding} {r : Result}
    (h : r ∈ resultsFrom host index findings) :
    ∃ f ∈ findings, ∃ o ∈ f.occurrences, ∃ i, r = Result.ofOccurrence host f.ruleId i o := by
  induction findings generalizing index with
  | nil => simp [resultsFrom] at h
  | cons f findings ih =>
    rcases List.mem_append.1 h with here | later
    · obtain ⟨o, mem, rfl⟩ := List.mem_map.1 here
      exact ⟨f, List.mem_cons_self, o, mem, index, rfl⟩
    · obtain ⟨g, mem, rest⟩ := ih later
      exact ⟨g, List.mem_cons_of_mem _ mem, rest⟩

/-- The fingerprint is among the properties, whatever else is. -/
theorem lookup_propertiesOf (metadata : List (String × Json.Value)) {fingerprint : String}
    (h : fingerprint ≠ "") :
    (propertiesOf metadata fingerprint).lookup fingerprintKey = some (.string fingerprint) := by
  have member : textMember? fingerprintKey fingerprint = [(fingerprintKey, .string fingerprint)] :=
    if_neg h
  simp only [propertiesOf, member, Dict.ofList, List.foldl_append, List.foldl_cons, List.foldl_nil]
  exact Dict.get?_alter_self _ _ _

theorem fingerprint_of_anchored {host : Host} {s : Selection} (extensions : "" ∉ s.extensions)
    {o : Occurrence} (h : o.Anchored host (collect host s).classification) (ruleId : String) (i : Nat) :
    ∃ hash, hash ≠ "" ∧ (Result.ofOccurrence host ruleId i o).properties.lookup fingerprintKey =
      some (.string hash) := by
  obtain ⟨⟨fileType, collected⟩, content, readable, lower, order, upper⟩ := h
  have named : Text.trim o.file ≠ "" :=
    Selection.trim_ne_of_typeOf? extensions (mem_collect collected)
  have first : max o.startLine 1 = o.startLine := Int.max_eq_left lower
  have nonempty := Fingerprint.ofFile_ne_empty (max o.endLine (max o.startLine 1)) named readable
    (by omega : 1 ≤ max o.startLine 1) (by omega)
  exact ⟨_, nonempty, lookup_propertiesOf _ nonempty⟩

end Sarif

namespace ScanContext

/-- **Occurrences are anchored.** Each occurrence that a scan with the bundled rules reports is in a
collected file, on lines that this file has; so each result of the log made from the report carries a
fingerprint. -/
theorem scan_occurrences_anchored (c : ScanContext) (bundled : c.registry = .default)
    (host : Host) (options : ScanOptions) (result : ScanResult)
    (scanned : c.scan host options = .ok result) :
    ∃ s, Selection.ofOptions host (c.complete options) = .ok s ∧
      (∀ f ∈ result.report.rules, ∀ o ∈ f.occurrences,
        o.Anchored host (collect host s).classification) ∧
      ∀ render, ∀ r ∈ (Sarif.Log.ofReport host render result.report).results,
        ∃ hash, hash ≠ "" ∧ r.properties.lookup Sarif.fingerprintKey = some (.string hash) := by
  simp only [scan] at scanned
  split at scanned
  · simp at scanned
  next s selected =>
    simp only [Except.ok.injEq] at scanned
    subst scanned
    refine ⟨s, selected, fun f listed o found => scanSelection_anchored bundled listed found,
      fun render r mem => ?_⟩
    obtain ⟨f, occurring, o, found, i, rfl⟩ := Sarif.mem_resultsFrom mem
    have listed := (List.mem_filter.1 occurring).1
    exact Sarif.fingerprint_of_anchored (Selection.ofOptions_extensions selected)
      (scanSelection_anchored bundled listed found) f.ruleId i

/-- The selection of a scan of the plugin that is cut off. -/
def cutPluginSelection : Selection := (({} : ScanContext).unrooted { root := "/srv" }).rootedAt "/srv"

theorem cutPlugin_linkAt : cutPluginHost.linkAt "/srv" = .ok (.dir cutPluginTree) :=
  @Host.linkAt_names cutPluginHost ["srv"] cutPluginTree rfl (by decide) (by decide) (by decide)
    (by decide)

theorem cutPlugin_collected :
    (collect cutPluginHost cutPluginSelection).classification =
      Dict.ofList [("di", []), ("js", []), ("php", ["/srv/Plugin/Save.php"]), ("phtml", []),
        ("xml", [])] := by
  rw [@collect_of_linkAt cutPluginHost cutPluginSelection cutPluginTree cutPlugin_linkAt]
  decide

/-- The rule about around plugins finds the method, which goes on to the end of the file. -/
theorem cutPlugin_alone :
    ∃ o, AroundPlugin.rule.alone cutPluginHost
        (collect cutPluginHost cutPluginSelection).classification = [o] ∧
      o.normalize.file = "/srv/Plugin/Save.php" ∧ o.normalize.startLine = 2 ∧
      o.normalize.endLine = 3 := by
  have proper : Entry.ProperIn cutPluginTree := by
    simp only [cutPluginTree, Entry.ProperIn, Entry.Proper, Entry.text]
    decide
  have loaded : AroundPlugin.sources cutPluginHost
      (collect cutPluginHost cutPluginSelection).classification =
        [⟨"/srv/Plugin/Save.php", cutPlugin.toList⟩] := by
    rw [cutPlugin_collected]
    exact @Host.loadAll_below cutPluginHost "/srv" cutPlugin cutPluginTree ["Plugin", "Save.php"]
      cutPlugin_linkAt proper rfl (by decide) (by decide) (by decide)
  rw [AroundPlugin.alone_eq, loaded]
  exact ⟨_, rfl, rfl, rfl, rfl⟩

theorem scan_occurrences_anchored_cutPlugin :
    ∃ result, ({} : ScanContext).scan cutPluginHost { root := "/srv" } = .ok result ∧
      (∃ f ∈ result.report.rules, ∃ o ∈ f.occurrences,
        o.file = "/srv/Plugin/Save.php" ∧ o.startLine = 2 ∧ o.endLine = 3) ∧
      ∃ s, Selection.ofOptions cutPluginHost (({} : ScanContext).complete { root := "/srv" }) = .ok s ∧
        ∀ f ∈ result.report.rules, ∀ o ∈ f.occurrences,
          o.Anchored cutPluginHost (collect cutPluginHost s).classification := by
  have scanned : ({} : ScanContext).scan cutPluginHost { root := "/srv" } =
      .ok (({} : ScanContext).scanSelection cutPluginHost cutPluginSelection) :=
    scan_of_resolved {} (by decide) (by rfl)
  obtain ⟨s, selected, anchored, _⟩ :=
    scan_occurrences_anchored {} rfl cutPluginHost { root := "/srv" } _ scanned
  refine ⟨_, scanned, ?_, s, selected, anchored⟩
  obtain ⟨o, alone, place⟩ := cutPlugin_alone
  have runs : AroundPlugin.rule ∈ runnable (collect cutPluginHost cutPluginSelection).classification
      (({} : ScanContext).dispatchOptions cutPluginSelection) := by
    rw [cutPlugin_collected, mem_runnable]
    exact ⟨List.mem_cons_self, by decide, by decide⟩
  have listed : AroundPlugin.rule.finding [o] ∈
      (({} : ScanContext).scanSelection cutPluginHost cutPluginSelection).report.rules := by
    refine (mem_rules_bundled rfl).2 ⟨AroundPlugin.rule, runs, ?_, ?_⟩
    · rw [alone]
      exact List.cons_ne_nil _ _
    · rw [alone]
  exact ⟨_, listed, o.normalize, List.mem_cons_self, place⟩

end ScanContext

end ShopLint
