import ShopLint.Proofs.Isolation
import ShopLint.Scan

/-!
Scans come to their end. Whatever is in the tree, a scan with the bundled rules that has a root to
start from gives a result in which no rule has failed.
-/

namespace ShopLint

/-- The selection with another root. -/
def Selection.rootedAt (s : Selection) (root : String) : Selection := { s with root := root }

namespace ScanContext

/-- What a scan with the bundled rules is made of: the files of a selection, and what each rule finds
in them alone. -/
theorem scanSelection_bundled {c : ScanContext} (bundled : c.registry = .default) (host : Host)
    (s : Selection) :
    (c.scanSelection host s).failure = none ∧
      (c.scanSelection host s).report =
        (c.emptyReport host s.root).gather (·.alone host (collect host s).classification)
          (runnable (collect host s).classification (c.dispatchOptions s)) := by
  obtain ⟨after, run, report⟩ := dispatch_bundled host (collect host s).classification
    (c.dispatchOptions s) (c.emptyReport host s.root)
  have built : c.registry.build true = (Registry.bundled.map Rule.processor, []) := by
    rw [bundled, Registry.build_default]
  simp only [scanSelection, built, run, report, and_self]

/-- The findings of such a scan are those of the rules that found something. -/
theorem mem_rules_bundled {c : ScanContext} (bundled : c.registry = .default) {host : Host}
    {s : Selection} {f : Finding} :
    f ∈ (c.scanSelection host s).report.rules ↔
      ∃ r ∈ runnable (collect host s).classification (c.dispatchOptions s),
        r.alone host (collect host s).classification ≠ [] ∧
          f = r.finding (r.alone host (collect host s).classification) := by
  rw [(scanSelection_bundled bundled host s).2, Report.rules, Dict.mem_values_iff]
  constructor
  · rintro ⟨id, atId⟩
    obtain ⟨r, mem, _, found, eq⟩ := (get?_gather_bundled host _ _ _ id f).1 atId
    exact ⟨r, mem, found, eq⟩
  · rintro ⟨r, mem, found, eq⟩
    exact ⟨r.id, (get?_gather_bundled host _ _ _ r.id f).2 ⟨r, mem, rfl, found, eq⟩⟩

/-- What a scan goes by, whatever its root is. -/
def unrooted (c : ScanContext) (options : ScanOptions) : Selection where
  root := ""
  extensions := Selection.allowed (c.complete options)
  excludeDirs := normalizeAll Text.trim (c.complete options).excludeDirs
  excludeFiles := normalizeAll Text.trim (c.complete options).excludeFiles
  excludePaths := normalizeAll Text.trim options.excludePaths
  fixableOnly := options.fixableOnly

theorem scan_of_resolved (c : ScanContext) {host : Host} {options : ScanOptions} {root : String}
    (given : Text.trim options.root ≠ "") (resolved : host.absolute options.root = .ok root) :
    c.scan host options = .ok (c.scanSelection host ((c.unrooted options).rootedAt root)) := by
  have selected : Selection.ofOptions host (c.complete options) =
      .ok ((c.unrooted options).rootedAt root) := by
    have isGiven : (c.complete options).root = options.root := rfl
    simp only [Selection.ofOptions, isGiven, if_neg given, resolved]
    rfl
  simp only [scan, selected]

/-- **No source tree makes a scan fail.** With a root that is not blank and can be made absolute, a
scan with the bundled rules gives a result without a failed rule. And on every line of any file on
which the rule about around plugins sees a method, the brace counter finds a block, it starts on
exactly that line, and so there is a body to look at. -/
theorem scan_bundled_completes (c : ScanContext) (bundled : c.registry = .default) (host : Host)
    (options : ScanOptions) (root : String) (given : Text.trim options.root ≠ "")
    (resolved : host.absolute options.root = .ok root) :
    (∃ result, c.scan host options = .ok result ∧ result.failure = none) ∧
    ∀ (content line method : List Char) (n : Nat), (n, line) ∈ numbered (linesOf content) →
      AroundPlugin.aroundMethod? line = some method →
        ∃ block, Php.functionAt (linesOf content) n = .ok block ∧ block.startLine = n ∧
          (Php.functionAt (linesOf content) n).map Php.FunctionBlock.body = .ok block.body := by
  constructor
  · exact ⟨_, c.scan_of_resolved given resolved, (scanSelection_bundled bundled host _).1⟩
  · intro content line method n numberedLine seen
    obtain ⟨block, at_, start, _⟩ := AroundPlugin.functionAt_of_aroundMethod? numberedLine seen
    refine ⟨block, at_, start, ?_⟩
    rw [at_]
    rfl

/-- A plugin whose around method is cut off before its closing brace. -/
def cutPlugin : String := "<?php\nfunction aroundSave($s) \x7b\n"

def cutPluginTree : List (String × Entry) := [("Plugin", .dir [("Save.php", .text cutPlugin)])]

def cutPluginHost : Host where
  tree := .dir [("srv", .dir cutPluginTree)]
  cwd := "/"
  env := {}

theorem scan_bundled_completes_cutPlugin :
    AroundPlugin.aroundMethod? "function aroundSave($s) \x7b".toList = some "aroundSave".toList ∧
    (∃ result, ({} : ScanContext).scan cutPluginHost { root := "/srv" } = .ok result ∧
      result.failure = none) ∧
    ∃ block, Php.functionAt (linesOf cutPlugin.toList) (2 : Nat) = .ok block ∧ block.startLine = 2 := by
  have seen : AroundPlugin.aroundMethod? "function aroundSave($s) \x7b".toList =
      some "aroundSave".toList := by decide
  have numberedLine : (2, "function aroundSave($s) \x7b".toList) ∈
      numbered (linesOf cutPlugin.toList) := by decide
  have completes := scan_bundled_completes {} rfl cutPluginHost { root := "/srv" } "/srv"
    (by decide) (by rfl)
  obtain ⟨block, at_, start, _⟩ := completes.2 _ _ _ _ numberedLine seen
  exact ⟨seen, completes.1, block, at_, start⟩

end ScanContext

end ShopLint
