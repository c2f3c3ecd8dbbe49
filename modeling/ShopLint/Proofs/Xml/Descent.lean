import ShopLint.Xml.Document
import Mathlib.Data.List.Basic

/-!
The elements of a document as what stands in it at any depth. The search by levels comes to each of them,
since it goes as deep as the document does.
-/

namespace ShopLint.Xml

def Element.toNode (e : Element) : Node := .element e.name e.attrs e.children

/-- The element stands among the nodes, or at any depth in one of them. -/
inductive Holds : List Node → Element → Prop
  | here {nodes : List Node} {e : Element} (mem : e.toNode ∈ nodes) : Holds nodes e
  | deeper {nodes : List Node} {outer e : Element} (mem : outer.toNode ∈ nodes)
      (inside : Holds outer.children e) : Holds nodes e

theorem mem_elementsOf {nodes : List Node} {e : Element} : e ∈ elementsOf nodes ↔ e.toNode ∈ nodes := by
  simp only [elementsOf, List.mem_filterMap]
  constructor
  · rintro ⟨node, mem, found⟩
    cases node with
    | element name attrs children =>
      cases found
      exact mem
    | text content => cases found
    | comment => cases found
    | other => cases found
  · intro mem
    exact ⟨e.toNode, mem, rfl⟩

theorem holds_iff {nodes : List Node} {e : Element} :
    Holds nodes e ↔ ∃ outer ∈ elementsOf nodes, e = outer ∨ Holds outer.children e := by
  constructor
  · intro h
    cases h with
    | here mem => exact ⟨e, mem_elementsOf.2 mem, .inl rfl⟩
    | deeper mem inside => exact ⟨_, mem_elementsOf.2 mem, .inr inside⟩
  · rintro ⟨outer, mem, rfl | inside⟩
    · exact .here (mem_elementsOf.1 mem)
    · exact .deeper (mem_elementsOf.1 mem) inside

theorem depth_le_depthOf {nodes : List Node} {node : Node} (mem : node ∈ nodes) :
    node.depth ≤ depthOf nodes := by
  induction nodes with
  | nil => cases mem
  | cons first nodes ih =>
    rw [depthOf]
    rcases List.mem_cons.1 mem with rfl | mem
    · exact Nat.le_max_left _ _
    · exact Nat.le_trans (ih mem) (Nat.le_max_right _ _)

theorem depthOf_children_lt {nodes : List Node} {e : Element} (mem : e ∈ elementsOf nodes) :
    depthOf e.children < depthOf nodes := by
  have := depth_le_depthOf (mem_elementsOf.1 mem)
  rw [Element.toNode, Node.depth] at this
  omega

/-- As many levels as the elements of a row are deep hold all that is in them. -/
theorem mem_levelsFrom {levels : Nat} {row : List Element} {e : Element}
    (enough : ∀ outer ∈ row, depthOf outer.children < levels) :
    e ∈ levelsFrom levels row ↔ ∃ outer ∈ row, e = outer ∨ Holds outer.children e := by
  induction levels generalizing row with
  | zero =>
    have none : row = [] := List.eq_nil_iff_forall_not_mem.2 fun outer mem => absurd (enough outer mem) (by omega)
    simp [levelsFrom, none]
  | succ levels ih =>
    have below : ∀ inner ∈ row.flatMap (fun e => elementsOf e.children), depthOf inner.children < levels := by
      intro inner mem
      obtain ⟨outer, inRow, inside⟩ := List.mem_flatMap.1 mem
      have := enough outer inRow
      have := depthOf_children_lt inside
      omega
    rw [levelsFrom, List.mem_append, ih below]
    constructor
    · rintro (mem | ⟨inner, mem, found⟩)
      · exact ⟨e, mem, .inl rfl⟩
      · obtain ⟨outer, inRow, inside⟩ := List.mem_flatMap.1 mem
        exact ⟨outer, inRow, .inr (holds_iff.2 ⟨inner, inside, found⟩)⟩
    · rintro ⟨outer, inRow, rfl | inside⟩
      · exact .inl inRow
      · obtain ⟨inner, mem, found⟩ := holds_iff.1 inside
        exact .inr ⟨inner, List.mem_flatMap.2 ⟨outer, inRow, mem⟩, found⟩

theorem mem_allElements {nodes : List Node} {e : Element} : e ∈ allElements nodes ↔ Holds nodes e := by
  rw [allElements, mem_levelsFrom fun _ => depthOf_children_lt, holds_iff]

theorem mem_elementsNamed {nodes : List Node} {key : String} {e : Element} :
    e ∈ elementsNamed nodes key ↔ Holds nodes e ∧ e.name.key = key := by
  simp only [elementsNamed, List.mem_filter, mem_allElements, decide_eq_true_eq]

theorem mem_grandchildren {e inner : Element} {first second : String} :
    inner ∈ e.grandchildren first second ↔ ∃ child : Element, child.toNode ∈ e.children ∧
      child.name.key = first ∧ inner.toNode ∈ child.children ∧ inner.name.key = second := by
  simp only [Element.grandchildren, Element.childrenNamed, List.mem_flatMap, List.mem_filter,
    mem_elementsOf, decide_eq_true_eq, and_assoc]

end ShopLint.Xml
