import ShopLint.Proofs.ClassIndex.Order
import ShopLint.Proofs.Dispatch
import ShopLint.Proofs.Registry
import ShopLint.Proofs.Rule.AroundPlugin
import ShopLint.Proofs.Rule.ProxyRequired

/-!
Rules do not interfere. Two of them fill and read the class index that all rules of a scan share, but
both index the same files, so each sees the index that it would have built alone; the others leave
the index as it is. Hence a dispatch of the bundled rules reports what each of them finds by itself, and
what it would find by itself on another occasion, unless a file leaves the order of its imports to decide.
-/

namespace ShopLint

/-- The index of all source files. -/
def sourceIndex (host : Host) (files : Classification) : ClassIndex :=
  ({} : ClassIndex).addFiles host (files.files FileType.php)

/-- The indexes that can occur during a dispatch: nothing or everything has been indexed. -/
def NoneOrAll (host : Host) (files : Classification) (index : ClassIndex) : Prop :=
  index = {} ∨ index = sourceIndex host files

theorem NoneOrAll.addFiles {host : Host} {files : Classification} {index : ClassIndex}
    (h : NoneOrAll host files index) :
    index.addFiles host (files.files FileType.php) = sourceIndex host files := by
  rcases h with rfl | rfl
  · rfl
  · exact ClassIndex.addFiles_addFiles host {} _

/-- A rule that neither fails nor uses the index is steady, whatever the indexes satisfy. -/
theorem Rule.steady_of_simple {r : Rule} {find : Host → Classification → List Occurrence}
    (h : r.run = Rule.simple find) (host : Host) (files : Classification) (I : ClassIndex → Prop) :
    r.Steady host files I := by
  intro index ok
  refine ⟨index, ?_, ok⟩
  simp only [Rule.alone, h, Rule.simple]

theorem AroundPlugin.alone_eq (host : Host) (files : Classification) :
    AroundPlugin.rule.alone host files =
      (sources host files).flatMap fun src => (numbered src.lines).filterMap (ofLine src) := by
  simp only [Rule.alone, AroundPlugin.rule, find_ok, Except.map]

theorem AroundPlugin.steady (host : Host) (files : Classification) (I : ClassIndex → Prop) :
    AroundPlugin.rule.Steady host files I := by
  intro index ok
  refine ⟨index, ?_, ok⟩
  rw [alone_eq]
  simp only [AroundPlugin.rule, find_ok, Except.map]

theorem CoreInheritance.steady (host : Host) (files : Classification) :
    CoreInheritance.rule.Steady host files (NoneOrAll host files) := by
  intro index ok
  refine ⟨sourceIndex host files, ?_, .inr rfl⟩
  simp only [Rule.alone, CoreInheritance.rule, CoreInheritance.run, ok.addFiles]
  rfl

theorem RepositoryUse.steady (host : Host) (files : Classification) :
    RepositoryUse.rule.Steady host files (NoneOrAll host files) := by
  intro index ok
  refine ⟨sourceIndex host files, ?_, .inr rfl⟩
  simp only [Rule.alone, RepositoryUse.rule, RepositoryUse.run, ok.addFiles]
  rfl

theorem Registry.bundled_steady (host : Host) (files : Classification) :
    ∀ r ∈ bundled, r.Steady host files (NoneOrAll host files) := by
  intro r mem
  simp only [bundled, List.mem_cons, List.not_mem_nil, or_false] at mem
  rcases mem with rfl | rfl | rfl | rfl | rfl | rfl | rfl | rfl | rfl | rfl
  · exact AroundPlugin.steady host files _
  · exact Rule.steady_of_simple rfl host files _
  · exact Rule.steady_of_simple rfl host files _
  · exact Rule.steady_of_simple rfl host files _
  · exact CoreInheritance.steady host files
  · exact Rule.steady_of_simple rfl host files _
  · exact Rule.steady_of_simple rfl host files _
  · exact Rule.steady_of_simple rfl host files _
  · exact Rule.steady_of_simple rfl host files _
  · exact RepositoryUse.steady host files

/-- The bundled rules that a dispatch runs. -/
def runnable (files : Classification) (options : DispatchOptions) : List Rule :=
  Registry.bundled.filter fun r => !r.processor.isSkipped files options

/-- A dispatch of the bundled rules never fails, and gathers what each rule finds alone. -/
theorem dispatch_bundled (host : Host) (files : Classification) (options : DispatchOptions)
    (report : Report) :
    ∃ after, dispatch host files options { report := report } (Registry.bundled.map Rule.processor) =
        (after, none) ∧
      after.report = report.gather (·.alone host files) (runnable files options) :=
  dispatch_steady options (Registry.bundled_steady host files) (.inl rfl)

/-- What is in the report of such a dispatch, when it starts with none. -/
theorem get?_gather_bundled (host : Host) (files : Classification) (options : DispatchOptions)
    (info : ScanInfo) (id : String) (f : Finding) :
    (({ info := info } : Report).gather (·.alone host files)
        (runnable files options)).findings.get? id = some f ↔
      ∃ r ∈ runnable files options, r.id = id ∧ r.alone host files ≠ [] ∧
        f = r.finding (r.alone host files) := by
  have among : ∀ r ∈ runnable files options, r ∈ Registry.bundled :=
    fun r mem => (List.mem_filter.1 mem).1
  have distinct : ((runnable files options).map Rule.id).Nodup := by
    have sub : ((runnable files options).map Rule.id).Sublist (Registry.bundled.map Rule.id) :=
      List.filter_sublist.map Rule.id
    exact Registry.ids_bundled_nodup.sublist sub
  rw [Report.get?_gather (fun r mem => Registry.bundled_reportable (among r mem)) distinct
    (fun _ _ => rfl)]
  simp only [show ({ info := info } : Report).findings.get? id = none from rfl, reduceCtorEq, false_or]

theorem mem_runnable {files : Classification} {options : DispatchOptions} {r : Rule} :
    r ∈ runnable files options ↔ r ∈ Registry.bundled ∧
      (options.fixableOnly = true → r.id ∈ options.fixable) ∧ files.has r.target := by
  have skipped : r.processor.isSkipped files options =
      (options.fixableOnly && decide (r.id ∉ options.fixable) || !files.has r.target) := rfl
  simp only [runnable, List.mem_filter, skipped, Bool.not_or, Bool.not_and, Bool.not_not,
    Bool.and_eq_true, Bool.or_eq_true, Bool.not_eq_true', decide_eq_false_iff_not]
  cases options.fixableOnly <;> simp

/-- A bundled rule with an index of its own always comes to an end. -/
theorem run_alone (host : Host) (files : Classification) {r : Rule} (h : r ∈ Registry.bundled) :
    ∃ index, r.run host files {} = .ok (index, r.alone host files) :=
  have ⟨index, ok, _⟩ := Registry.bundled_steady host files r h {} (.inl rfl)
  ⟨index, ok⟩

/-! The same rules on another occasion -/

theorem inspectEach_congr {inspect inspect' : Nat → SourceFile → List Occurrence}
    {sources : List SourceFile} (h : ∀ turn, ∀ src ∈ sources, inspect turn src = inspect' turn src) :
    inspectEach inspect sources = inspectEach inspect' sources :=
  congrArg List.flatten (List.mapIdx_eq_mapIdx_iff.2 fun turn _ => h turn _ (List.getElem_mem _))

section Reordered

variable {host : Host} {files : Classification} {index : ClassIndex} {src : SourceFile}
  (order : LookUp → Dict.Listing String)

theorem ObjectManager.inspectFile_eq_of_settled (settled : Php.SettledParams src.text)
    (orders orders' : Nat → Dict.Listing String) : inspectFile orders src = inspectFile orders' src := by
  simp only [inspectFile, Php.constructorOf_eq_of_settled settled orders orders']

theorem RepositoryUse.inspectFile_reordered (settled : Php.SettledParams src.text)
    (heads : ∀ c path, index.files.get? c = some path → host.SettledHead path) (turn : Nat) :
    inspectFile (host.reordered order) index turn src = inspectFile host index turn src := by
  have advised (orders orders' : String → Nat → Dict.Listing String) (dependency : String) :
      advice (host.reordered order) orders index dependency = advice host orders' index dependency := by
    simp only [advice, ClassIndex.apiInterface?_reordered heads order orders orders']
  simp only [inspectFile]
  rw [Php.constructorOf_eq_of_settled settled _ fun place => host.order (.parameter id turn place)]
  split
  · rfl
  · split
    · rfl
    · refine List.mapIdx_eq_mapIdx_iff.2 fun place _ => ?_
      rw [advised]

variable (settled : ∀ path ∈ files.files FileType.php, host.Settled path)

include settled

theorem settled_of_mem_loadAll {test : String → Bool}
    (loaded : src ∈ loadAll host ((files.files FileType.php).filter test)) : Php.Settled src.text := by
  obtain ⟨path, mem, _, rfl⟩ := mem_loadAll_iff.1 loaded
  exact settled path (List.mem_of_mem_filter mem)

theorem sourceIndex_reordered : sourceIndex (host.reordered order) files = sourceIndex host files :=
  ClassIndex.addFiles_reordered
    (fun path mem => Host.SettledHead.parent (settled path mem).head) order {}

theorem ObjectManager.find_reordered : find (host.reordered order) files = find host files := by
  simp only [find, Host.loadAll_reordered]
  exact inspectEach_congr fun turn src loaded =>
    inspectFile_eq_of_settled (settled_of_mem_loadAll settled loaded).params _ _

theorem ProxyRequired.find_reordered : find (host.reordered order) files = find host files := by
  rw [find_eq_unproxied, find_eq_unproxied,
    unproxied_reordered (.inr fun path mem => (settled path mem).params)]
  exact List.map_congr_left fun i _ => occurrence_reordered i

theorem CoreInheritance.run_reordered :
    (run (host.reordered order) files {}).2 = (run host files {}).2 := by
  show (loadAll (host.reordered order) _).filterMap (inspectFile (sourceIndex (host.reordered order) files)) =
    (loadAll host _).filterMap (inspectFile (sourceIndex host files))
  rw [sourceIndex_reordered order settled, Host.loadAll_reordered]

theorem RepositoryUse.run_reordered :
    (run (host.reordered order) files {}).2 = (run host files {}).2 := by
  show inspectEach (inspectFile (host.reordered order) (sourceIndex (host.reordered order) files)) _ =
    inspectEach (inspectFile host (sourceIndex host files)) _
  rw [sourceIndex_reordered order settled, Host.loadAll_reordered]
  exact inspectEach_congr fun turn src loaded =>
    inspectFile_reordered order (settled_of_mem_loadAll settled loaded).params
      (fun _ path found => (settled path (ClassIndex.mem_of_get?_files found)).head) turn

/-- Where nothing that the files look up is ambiguous, a rule finds the same on every occasion. -/
theorem Registry.bundled_reordered :
    ∀ r ∈ bundled, r.alone (host.reordered order) files = r.alone host files := by
  intro r mem
  simp only [bundled, List.mem_cons, List.not_mem_nil, or_false] at mem
  rcases mem with rfl | rfl | rfl | rfl | rfl | rfl | rfl | rfl | rfl | rfl
  · rw [AroundPlugin.alone_eq, AroundPlugin.alone_eq]
    rfl
  · rfl
  · exact ProxyRequired.find_reordered order settled
  · exact ObjectManager.find_reordered order settled
  · exact CoreInheritance.run_reordered order settled
  · rfl
  · rfl
  · rfl
  · rfl
  · exact RepositoryUse.run_reordered order settled

end Reordered

/-- **Rules do not interfere.** All registered processors are built, and their dispatch with one shared
index comes to its end. Say that each of them is also run by itself, with an index of its own, and that
imports are then gone through in the same orders or no name that the source files look up is ambiguous.
Under an identifier the report holds exactly the one finding that the processor of that name comes to by
itself, when it is selected, has files of its type and finds something. -/
theorem dispatch_reports_what_rules_find_alone (host : Host) (files : Classification)
    (options : DispatchOptions) (info : ScanInfo) :
    (Registry.build .default true).1.map Processor.id = Registry.ids .default ∧
    ∃ after,
      dispatch host files options { report := { info := info } } (Registry.build .default true).1 =
        (after, none) ∧
      ∀ orders : String → LookUp → Dict.Listing String,
        (∀ id, orders id = host.order ∨ ∀ path ∈ files.files FileType.php, host.Settled path) →
        ∀ id f, after.report.findings.get? id = some f ↔
          ∃ p ∈ (Registry.build .default true).1, p.id = id ∧
            (options.fixableOnly = true → id ∈ options.fixable) ∧ files.has p.target ∧
            ∃ done, p.process (host.reordered (orders id)) files {} = .ok done ∧ done.found ≠ 0 ∧
              done.findings = [f] := by
  rw [Registry.build_default]
  refine ⟨?_, ?_⟩
  · rw [Registry.ids, Registry.sorted_default]
    rfl
  obtain ⟨after, run, report⟩ := dispatch_bundled host files options { info := info }
  refine ⟨after, run, fun orders known id f => ?_⟩
  have alone {r : Rule} (bundled : r ∈ Registry.bundled) :
      ∃ index, r.processor.process (host.reordered (orders id)) files {} =
        .ok (r.processed index (r.alone host files)) := by
    have same : r.alone (host.reordered (orders id)) files = r.alone host files := by
      rcases known id with eq | settled
      · rw [eq]
        rfl
      · exact Registry.bundled_reordered _ settled r bundled
    obtain ⟨index, ok⟩ := run_alone (host.reordered (orders id)) files bundled
    exact ⟨index, Rule.process_of_run (same ▸ ok)⟩
  rw [report, get?_gather_bundled]
  simp only [List.mem_map, exists_exists_and_eq_and]
  constructor
  · rintro ⟨r, mem, rfl, some, rfl⟩
    obtain ⟨bundled, selected, has⟩ := mem_runnable.1 mem
    obtain ⟨index, ok⟩ := alone bundled
    exact ⟨r, bundled, rfl, selected, has, _, ok, by simpa [Rule.processed] using some, rfl⟩
  · rintro ⟨r, bundled, rfl, selected, has, done, ok, some, only⟩
    obtain ⟨index, ok'⟩ := alone bundled
    cases ok.symm.trans ok'
    cases only
    exact ⟨r, mem_runnable.2 ⟨bundled, selected, has⟩, rfl, by simpa [Rule.processed] using some, rfl⟩

/-- The session of a cart is in the report as it is found alone, in whatever orders imports are gone
through then. -/
theorem dispatch_reports_what_rules_find_alone_cart :
    let files := ProxyRequired.cartFiles ["/srv/cut_di.xml"]
    (∀ path ∈ files.files FileType.php, ProxyRequired.cartHost.Settled path) ∧
    ∃ after,
      dispatch ProxyRequired.cartHost files {} { report := {} } (Registry.build .default true).1 =
        (after, none) ∧
      ∃ f, after.report.findings.get? ProxyRequired.id = some f ∧ f.occurrences =
        [((ProxyRequired.cartInjection "/srv/Cart.php").occurrence ProxyRequired.cartHost).normalize] := by
  intro files
  have settled := ProxyRequired.cart_settled ["/srv/cut_di.xml"]
  obtain ⟨_, after, run, alone⟩ :=
    dispatch_reports_what_rules_find_alone ProxyRequired.cartHost files {} {}
  refine ⟨settled, after, run, ?_⟩
  have found : ProxyRequired.rule.alone ProxyRequired.cartHost files = _ := ProxyRequired.find_cart
  obtain ⟨index, ok⟩ := run_alone ProxyRequired.cartHost files (r := ProxyRequired.rule)
    (by simp [Registry.bundled])
  rw [found] at ok
  have listed := (alone (fun _ => ProxyRequired.cartHost.order) (fun _ => .inr settled) ProxyRequired.id _).2
    ⟨ProxyRequired.rule.processor, ?_, rfl, nofun, ?_, _, Rule.process_of_run ok, ?_, rfl⟩
  · exact ⟨_, listed, rfl⟩
  · rw [Registry.build_default]
    exact List.mem_map_of_mem (by simp [Registry.bundled])
  · show (!(files.files FileType.di).isEmpty) = true
    rw [(ProxyRequired.files_cart _).1]
    rfl
  · exact Int.one_ne_zero

end ShopLint
