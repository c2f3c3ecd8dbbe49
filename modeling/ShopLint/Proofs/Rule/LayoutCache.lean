import ShopLint.Proofs.Xml.StartTag
import ShopLint.Rule.LayoutCache
import Mathlib.Data.List.Nodup

/-!
The lines of elements that keep a page out of the cache. The rule takes the elements level by level and
the lines from top to bottom, and pairs them by number: an element is reported on the line of the one
that comes as far in the text as it comes in the levels. All are on their own lines just if no such element
stands deeper than one further down.
-/

namespace ShopLint.LayoutCache

open Xml (StartTag)

/-- The attribute with which a start tag disables caching. -/
def disabling? (tag : StartTag) : Option Xml.PlacedAttr :=
  tag.attrs.find? fun a => a.attr.name.key = "cacheable" && a.attr.value = "false"

/-- The start tags that disable caching, from top to bottom. -/
def carriers (src : SourceFile) : List StartTag :=
  (Xml.startTags src.text).filter fun tag => (disabling? tag).isSome

/-- The line that holds the attribute with which a start tag disables caching. -/
def ownLine (src : SourceFile) (tag : StartTag) : Nat :=
  (disabling? tag).elim 0 fun a => Xml.lineAt src.text a.place

/-- The lines on which caching is disabled are those of the start tags that do so, which have a line each. -/
structure OneLineEach (src : SourceFile) : Prop where
  mem_iff : ∀ n, n ∈ disabledLines src ↔ ∃ tag ∈ carriers src, ownLine src tag = n
  nodup : ((carriers src).map (ownLine src)).Nodup

/-- The occurrence for an element. -/
def report (src : SourceFile) (e : Xml.Element) (line : Nat) : Occurrence :=
  let file := Path.base src.path
  let severity := if file = "default.xml" then Severity.error else .warning
  let name := e.attrD "name" e.name.key
  let handle := Text.dropEnd ".xml" file
  occurrenceAt src.path line severity
    s!"{e.name.key} {Text.quote name} disables full page cache for handle {handle}"

section

variable {src : SourceFile} {doc : List Xml.Node}

theorem carriers_eq (src : SourceFile) :
    carriers src = (Xml.startTags src.text).filter fun tag =>
      tag.element.attrs.any fun a => a.name.key = "cacheable" && a.value = "false" := by
  refine List.filter_congr fun tag mem => ?_
  rw [← (Xml.startTagsFrom_placed mem).1, List.any_map, disabling?, List.isSome_find?]
  rfl

/-- The elements come level by level, and go with the lines by number. -/
theorem inspectFile_eq (parsed : Xml.parse? src.text = some doc) :
    let named := Xml.byLevel StartTag.depth (Xml.depthOf doc) (carriers src)
    inspectFile src = ((List.range named.length).zip named).map fun p =>
      report src p.2.element ((disabledLines src).getD p.1 1) := by
  intro named
  have heads : (Xml.elementsWith doc "cacheable" "false").map Xml.Element.head =
      named.map StartTag.element := by
    rw [Xml.elementsWith, Xml.map_head_filter_allElements parsed fun _ => rfl, ← carriers_eq]
  have length : (Xml.elementsWith doc "cacheable" "false").length = named.length := by
    simpa using congrArg List.length heads
  have onHeads (elements : List Xml.Element) (numbers : List Nat) :
      (numbers.zip elements).map (fun p => report src p.2 ((disabledLines src).getD p.1 1)) =
        (numbers.zip (elements.map Xml.Element.head)).map fun p =>
          report src p.2 ((disabledLines src).getD p.1 1) := by
    rw [List.zip_map_right, List.map_map]
    rfl
  have found := onHeads (Xml.elementsWith doc "cacheable" "false") (List.range named.length)
  rw [heads, List.zip_map_right, List.map_map] at found
  simp only [inspectFile, parsed, length]
  exact found

theorem ownLine_eq (src : SourceFile) {tag : StartTag} (mem : tag ∈ carriers src) :
    ∃ a ∈ tag.attrs, ownLine src tag = Xml.lineAt src.text a.place := by
  obtain ⟨a, found⟩ := Option.isSome_iff_exists.1 (List.mem_filter.1 mem).2
  exact ⟨a, List.mem_of_find?_eq_some found, by simp [ownLine, found]⟩

theorem ownLine_mono (src : SourceFile) :
    (carriers src).Pairwise fun tag later => ownLine src tag ≤ ownLine src later := by
  have ordered := (Xml.startTagsFrom_pairwise src.text.length 0 src.text).filter
    fun tag => (disabling? tag).isSome
  refine ordered.imp_of_mem fun {tag later} mem mem' before => ?_
  obtain ⟨a, isAttr, line⟩ := ownLine_eq src mem
  obtain ⟨b, isAttr', line'⟩ := ownLine_eq src mem'
  have inText := (Xml.startTagsFrom_placed (List.mem_filter.1 mem).1).2 a isAttr
  rw [line, line']
  exact Xml.lineAt_mono inText (before a isAttr b isAttr')

theorem OneLineEach.pairwise (h : OneLineEach src) :
    (carriers src).Pairwise fun tag later => ownLine src tag < ownLine src later := by
  have different := List.pairwise_map.1 h.nodup
  exact ((ownLine_mono src).and different).imp fun ⟨le, ne⟩ => Nat.lt_of_le_of_ne le ne

theorem OneLineEach.disabledLines_eq (h : OneLineEach src) :
    disabledLines src = (carriers src).map (ownLine src) := by
  have rising : (disabledLines src).Pairwise (· < ·) := numbersFrom_pairwise 1 _ src.lines
  have same : (disabledLines src).Perm ((carriers src).map (ownLine src)) := by
    refine (List.perm_ext_iff_of_nodup (rising.imp Nat.ne_of_lt) h.nodup).2 fun n => ?_
    rw [h.mem_iff, List.mem_map]
  exact same.eq_of_pairwise (fun a b _ _ lt gt => absurd lt (Nat.lt_asymm gt)) rising
    (List.pairwise_map.2 h.pairwise)

theorem startLine_report (src : SourceFile) (e : Xml.Element) {line : Nat} (some : 1 ≤ line) :
    (report src e line).startLine = line := by
  simp only [report, occurrenceAt]
  omega

/-- Reports on given lines are on the elements' own ones just if those are the lines. -/
theorem zip_report_iff (src : SourceFile) {named : List StartTag} {lines : List Nat}
    (same : named.length = lines.length) (some : ∀ n ∈ lines, 1 ≤ n) :
    (∀ p ∈ named.zip (List.zipWith (fun tag line => report src tag.element line) named lines),
        p.2.startLine = ownLine src p.1) ↔ named.map (ownLine src) = lines := by
  induction named generalizing lines with
  | nil => simp [List.length_eq_zero_iff.1 same.symm]
  | cons tag named ih =>
    cases lines with
    | nil => cases same
    | cons line lines =>
      have rest := ih (Nat.succ.inj same) fun n mem => some n (List.mem_cons_of_mem _ mem)
      have first := startLine_report src tag.element (some line List.mem_cons_self)
      simp only [List.zipWith_cons_cons, List.zip_cons_cons, List.forall_mem_cons, rest, first,
        List.map_cons, List.cons.injEq, Int.ofNat_inj, eq_comm]

/-- **Which line an element is reported on.** Where the lines that disable caching are those of the start
tags that do so, a line each, the elements are reported level by level, on the lines of those start tags
from top to bottom. Each is on its own line just if none of them is deeper than a later one. -/
theorem inspectFile_ownLine_iff (parsed : Xml.parse? src.text = some doc) (lines : OneLineEach src) :
    let named := Xml.byLevel StartTag.depth (Xml.depthOf doc) (carriers src)
    named.Perm (carriers src) ∧
      inspectFile src =
        List.zipWith (fun tag line => report src tag.element line) named
          ((carriers src).map (ownLine src)) ∧
      ((∀ p ∈ named.zip (inspectFile src), p.2.startLine = ownLine src p.1) ↔
        (carriers src).Pairwise fun tag later => tag.depth ≤ later.depth) := by
  intro named
  have within : ∀ tag ∈ carriers src, tag.depth < Xml.depthOf doc := fun tag mem =>
    (Xml.parse?_startTags parsed).2 tag (List.mem_filter.1 mem).1
  have perm : named.Perm (carriers src) := Xml.byLevel_perm within
  have length : named.length = ((carriers src).map (ownLine src)).length := by
    rw [perm.length_eq, List.length_map]
  have found : inspectFile src =
      List.zipWith (fun tag line => report src tag.element line) named
        ((carriers src).map (ownLine src)) := by
    rw [inspectFile_eq parsed, lines.disabledLines_eq]
    refine List.ext_getElem (by simp [named, perm.length_eq]) fun i _ inside => ?_
    have inLines : i < (carriers src).length := by
      simp only [List.length_zipWith, List.length_map] at inside
      omega
    simp [named, List.getD_eq_getElem?_getD, inLines]
  refine ⟨perm, found, ?_⟩
  have some : ∀ n ∈ (carriers src).map (ownLine src), 1 ≤ n := by
    intro n mem
    rw [← lines.disabledLines_eq] at mem
    exact (mem_numbersFrom mem).1
  rw [found, zip_report_iff src length some, ← Xml.byLevel_eq_self_iff within]
  constructor
  · intro same
    have rising : named.Pairwise fun tag later => ownLine src tag < ownLine src later := by
      rw [← List.pairwise_map, same]
      exact List.pairwise_map.2 lines.pairwise
    exact perm.eq_of_pairwise (fun a b _ _ lt gt => absurd lt (Nat.lt_asymm gt)) rising lines.pairwise
  · exact congrArg (List.map (ownLine src))

end

/-- A block in a container, and after it a block beside the container. -/
def nestedLayout : SourceFile where
  path := "view/frontend/layout/cart.xml"
  text := Php.joinLines (["<body>", "<container>", "<block cacheable=\"false\"/>", "</container>",
    "<block cacheable=\"false\"/>", "</body>"].map String.toList)

theorem nestedLayout_ownLine :
    (carriers nestedLayout).map (ownLine nestedLayout) = disabledLines nestedLayout := by
  decide +kernel

/-- The block beside the container is reported in the container, and the other one beside it. -/
theorem inspectFile_ownLine_iff_nested :
    ∃ doc, Xml.parse? nestedLayout.text = some doc ∧ OneLineEach nestedLayout ∧
      ¬∀ p ∈ (Xml.byLevel StartTag.depth (Xml.depthOf doc) (carriers nestedLayout)).zip
        (inspectFile nestedLayout), p.2.startLine = ownLine nestedLayout p.1 := by
  have isDocument : (Xml.parse? nestedLayout.text).isSome := by decide +kernel
  obtain ⟨doc, parsed⟩ := Option.isSome_iff_exists.1 isDocument
  have lines : OneLineEach nestedLayout :=
    { mem_iff := fun n => by rw [← nestedLayout_ownLine, List.mem_map]
      nodup := by decide +kernel }
  refine ⟨doc, parsed, lines, fun right => ?_⟩
  have rising := (inspectFile_ownLine_iff parsed lines).2.2.1 right
  have depths : ((carriers nestedLayout).map StartTag.depth).Pairwise (· ≤ ·) := List.pairwise_map.2 rising
  have falling : ¬((carriers nestedLayout).map StartTag.depth).Pairwise (· ≤ ·) := by decide +kernel
  exact falling depths

end ShopLint.LayoutCache
