import ShopLint.Proofs.Xml.StartTag
import ShopLint.Rule.AreaScope

/-!
The lines of entries that belong in another area. The rule looks for the class of an entry in double
quotes in the whole text, and takes the line of the first one. An entry is on its own line just if the
class is in double quotes on no earlier one.
-/

namespace ShopLint.AreaScope

open Xml (PlacedAttr StartTag)

/-- The values of an attribute in all elements of a name, level by level. -/
def entries (src : SourceFile) (levels : Nat) (kind key : String) : List PlacedAttr :=
  (Xml.byLevel StartTag.depth levels
    ((Xml.startTags src.text).filter (·.element.name.key = kind))).filterMap fun tag =>
      tag.attrs.find? (·.attr.name.key = key)

/-- The class of an entry in double quotes. -/
def quoted (a : PlacedAttr) : List Char := '"' :: (a.attr.value.toList ++ ['"'])

theorem quoted_ne_nil (a : PlacedAttr) : quoted a ≠ [] := List.cons_ne_nil _ _

section

variable {src : SourceFile} {doc : List Xml.Node}

theorem check_empty (src : SourceFile) (kind : String) : check src kind "" = none := by
  simp [check]

/-- A tag is checked by its attribute, and not at all without one. -/
theorem check_attrD {tag : StartTag} (mem : tag ∈ Xml.startTags src.text) (kind key : String) :
    check src kind (tag.element.attrD key "") =
      (tag.attrs.find? (·.attr.name.key = key)).bind fun a => check src kind a.attr.value := by
  rw [Xml.Element.attrD, Xml.Element.attr?, ← (Xml.startTagsFrom_placed mem).1, List.find?_map]
  cases found : tag.attrs.find? ((fun a => decide (a.name.key = key)) ∘ PlacedAttr.attr) with
  | none =>
    have absent : tag.attrs.find? (fun a => decide (a.attr.name.key = key)) = none := found
    simp [absent, check_empty]
  | some a =>
    have present : tag.attrs.find? (fun a => decide (a.attr.name.key = key)) = some a := found
    simp [present]

theorem filterMap_check (parsed : Xml.parse? src.text = some doc) (kind key : String) :
    (Xml.elementsNamed doc kind).filterMap (fun e => check src kind (e.attrD key "")) =
      (entries src (Xml.depthOf doc) kind key).filterMap fun a => check src kind a.attr.value := by
  have heads := Xml.map_head_filter_allElements parsed (p := fun e => e.name.key = kind) fun _ => rfl
  have onHeads : (Xml.elementsNamed doc kind).filterMap (fun e => check src kind (e.attrD key "")) =
      ((Xml.elementsNamed doc kind).map Xml.Element.head).filterMap
        fun e => check src kind (e.attrD key "") := by
    rw [List.filterMap_map]
    rfl
  rw [onHeads, Xml.elementsNamed, heads, List.filterMap_map, entries, List.filterMap_filterMap]
  refine List.filterMap_congr fun tag mem => ?_
  exact check_attrD (List.mem_filter.1 (Xml.mem_byLevel.1 mem).1).1 kind key

theorem startLine_check {kind : String} {a : PlacedAttr} {o : Occurrence}
    (h : check src kind a.attr.value = some o) :
    o.startLine = max 1 (findLine src.text (quoted a) : Int) := by
  unfold check at h
  split at h
  · cases h
  · obtain ⟨area, _, rfl⟩ := Option.map_eq_some_iff.1 h
    have same : ("\"" ++ a.attr.value ++ "\"").toList = quoted a := by simp [quoted]
    rw [same]
    rfl

/-- No entry is left out. -/
theorem mem_entries_iff (parsed : Xml.parse? src.text = some doc) {kind key : String} {a : PlacedAttr} :
    a ∈ entries src (Xml.depthOf doc) kind key ↔ ∃ tag ∈ Xml.startTags src.text,
      tag.element.name.key = kind ∧ tag.attrs.find? (·.attr.name.key = key) = some a := by
  simp only [entries, List.mem_filterMap, Xml.mem_byLevel, List.mem_filter, decide_eq_true_eq]
  constructor
  · rintro ⟨tag, ⟨⟨isTag, isKind⟩, _⟩, found⟩
    exact ⟨tag, isTag, isKind, found⟩
  · rintro ⟨tag, isTag, isKind, found⟩
    exact ⟨tag, ⟨⟨isTag, isKind⟩, (Xml.parse?_startTags parsed).2 tag isTag⟩, found⟩

/-- A value that is read as it is written is in double quotes on its own line. -/
theorem standsOn_ownLine {tag : StartTag} (isTag : tag ∈ Xml.startTags src.text) {a : PlacedAttr}
    (mem : a ∈ tag.attrs) {raw : List Char} (written : a.WrittenAs raw) (noReturn : '\r' ∉ raw) :
    StandsOn src.text (quoted a) (Xml.lineAt src.text a.place) := by
  obtain ⟨before, split⟩ := (Xml.startTagsFrom_placed isTag).2 a mem
  have value : a.attr.value.toList = raw :=
    Xml.value_eq_of_mem_attrsFrom ((Xml.mem_foldl_setPlaced mem).resolve_left (by simp)) written noReturn
  obtain ⟨_, _, rest, place⟩ := written
  refine ⟨before, rest, ?_, ?_⟩
  · rw [← split, place, quoted, value]
    simp
  · rw [← split, Xml.lineAt_append]

/-- **Which line an entry is reported on.** The values of the entries are checked level by level, those
of types before those of preferences. A value in double quotes and without references or carriage returns
is reported on its own line or before it, and on its own line just if its class is in double quotes on no
earlier one. With a carriage return in it, it is reported on the first line unless the class as it is read
is in double quotes elsewhere. -/
theorem inspectFile_entryLine_iff (parsed : Xml.parse? src.text = some doc) :
    inspectFile src =
      (entries src (Xml.depthOf doc) "type" "name").filterMap (fun a => check src "type" a.attr.value) ++
        (entries src (Xml.depthOf doc) "preference" "type").filterMap
          (fun a => check src "preference" a.attr.value) ∧
    ∀ kind key, ∀ a ∈ entries src (Xml.depthOf doc) kind key, ∀ o, check src kind a.attr.value = some o →
      ∀ raw, a.WrittenAs raw →
        ('\r' ∉ raw → o.startLine ≤ Xml.lineAt src.text a.place ∧
          (o.startLine = Xml.lineAt src.text a.place ↔
            ∀ n, StandsOn src.text (quoted a) n → Xml.lineAt src.text a.place ≤ n)) ∧
        ('\r' ∈ raw → (∀ n, ¬StandsOn src.text (quoted a) n) → o.startLine = 1) := by
  refine ⟨?_, fun kind key a mem o checked raw written => ⟨fun noReturn => ?_, fun _ nowhere => ?_⟩⟩
  · simp only [inspectFile, parsed, filterMap_check parsed]
  · obtain ⟨tag, isTag, _, found⟩ := (mem_entries_iff parsed).1 mem
    have own := standsOn_ownLine isTag (List.mem_of_find?_eq_some found) written noReturn
    obtain ⟨here, first⟩ | ⟨_, nowhere⟩ := findLine_cases (quoted_ne_nil a) src.text
    · have line : o.startLine = (findLine src.text (quoted a) : Int) := by
        rw [startLine_check checked]
        have := here.one_le
        omega
      have notLater := first _ own
      rw [line]
      refine ⟨by omega, ⟨fun same n stands => ?_, fun earliest => ?_⟩⟩
      · have := first n stands
        omega
      · have := earliest _ here
        omega
    · exact absurd own (nowhere _)
  · obtain ⟨here, _⟩ | ⟨none, _⟩ := findLine_cases (quoted_ne_nil a) src.text
    · exact absurd here (nowhere _)
    · rw [startLine_check checked, none]
      rfl

end

/-- Two entries for one class. -/
def repeatedEntry : SourceFile where
  path := "etc/di.xml"
  text := Php.joinLines (["<config>", "<type name=\"Acme\\Block\\Cart\"/>",
    "<type name=\"Acme\\Block\\Cart\"/>", "</config>"].map String.toList)

/-- The later of the two. -/
def laterEntry : PlacedAttr where
  attr := ⟨⟨"", "name"⟩, "Acme\\Block\\Cart"⟩
  place := Php.joinLines (["\"Acme\\Block\\Cart\"/>", "</config>"].map String.toList)

/-- The later entry is reported before its own line, on that of the earlier one. -/
theorem inspectFile_entryLine_iff_repeated :
    ∃ doc, Xml.parse? repeatedEntry.text = some doc ∧
      laterEntry ∈ entries repeatedEntry (Xml.depthOf doc) "type" "name" ∧
      ∃ o, check repeatedEntry "type" laterEntry.attr.value = some o ∧
        o.startLine < Xml.lineAt repeatedEntry.text laterEntry.place := by
  have isDocument : (Xml.parse? repeatedEntry.text).isSome := by decide +kernel
  obtain ⟨doc, parsed⟩ := Option.isSome_iff_exists.1 isDocument
  have listed : laterEntry ∈ entries repeatedEntry (Xml.depthOf doc) "type" "name" := by
    rw [mem_entries_iff parsed]
    decide +kernel
  have isReported : (check repeatedEntry "type" laterEntry.attr.value).isSome := by decide +kernel
  obtain ⟨o, checked⟩ := Option.isSome_iff_exists.1 isReported
  have written : laterEntry.WrittenAs "Acme\\Block\\Cart".toList :=
    ⟨by decide, by decide, Php.joinLines (["/>", "</config>"].map String.toList), by decide +kernel⟩
  have earlier : StandsOn repeatedEntry.text (quoted laterEntry) 2 :=
    ⟨Php.joinLines (["<config>", "<type name="].map String.toList),
      Php.joinLines (["/>", "<type name=\"Acme\\Block\\Cart\"/>", "</config>"].map String.toList),
      by decide +kernel, by decide +kernel⟩
  have own : Xml.lineAt repeatedEntry.text laterEntry.place = 3 := by decide +kernel
  obtain ⟨notLater, right⟩ :=
    ((inspectFile_entryLine_iff parsed).2 "type" "name" laterEntry listed o checked _ written).1 (by decide)
  refine ⟨doc, parsed, listed, o, checked, Int.lt_iff_le_and_ne.2 ⟨notLater, fun same => ?_⟩⟩
  have := right.1 same 2 earlier
  omega

end ShopLint.AreaScope
