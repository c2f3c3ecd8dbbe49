import ShopLint.Registry
import ShopLint.Report.Basic

/-!
The rules that come with the tool: all ten can be made, and they are run in the order of their
identifiers.
-/

namespace ShopLint.Registry

/-- The rules of the tool, in the order in which they are run. -/
def bundled : List Rule :=
  [AroundPlugin.rule, AreaScope.rule, ProxyRequired.rule, ObjectManager.rule, CoreInheritance.rule,
    DeprecatedJquery.rule, LayoutCache.rule, TemplateOutput.rule, RawSql.rule, RepositoryUse.rule]

theorem ids_bundled : bundled.map Rule.id =
    ["aroundPluginProceed", "diAreaScope", "diProxyRequired", "directObjectManager",
      "inheritanceOverCoreClass", "jsDeprecatedJquery", "layoutCacheableFalse",
      "phtmlUnescapedOutput", "rawSqlQuery", "repositoryOverCollection"] :=
  rfl

theorem ids_bundled_nodup : (bundled.map Rule.id).Nodup := by
  rw [ids_bundled]
  decide

/-- A report takes the finding of a rule under any of these identifiers. -/
theorem bundled_reportable {r : Rule} (h : r ∈ bundled) : r.id ≠ "" ∧ r.id ≠ Report.infoKey := by
  have mem : r.id ∈ bundled.map Rule.id := List.mem_map_of_mem h
  rw [ids_bundled] at mem
  constructor
  · intro eq
    rw [eq] at mem
    exact absurd mem (by decide)
  · intro eq
    rw [eq] at mem
    exact absurd mem (by decide)

theorem sorted_default : sorted default = default := by
  apply List.mergeSort_of_pairwise
  have ids : (default.map Registration.id).Pairwise (· ≤ ·) := by decide
  simpa [List.pairwise_map] using ids

theorem build_default : build default true = (bundled.map Rule.processor, []) := by
  rw [build, sorted_default]
  rfl

end ShopLint.Registry
