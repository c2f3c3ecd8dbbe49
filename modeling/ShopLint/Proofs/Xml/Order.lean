import ShopLint.Xml.Document
import Mathlib.Data.List.Basic
import Mathlib.Data.List.Range

/-!
The order in which a document gives its elements. It gives them level by level, so an element that stands
further down in the text comes first when it stands less deep. Only where no element stands deeper than a
later one do the two orders agree.
-/

namespace ShopLint.Xml

variable {α β : Type}

/-- Items level by level, each level in the order of the list. -/
def byLevel (depth : α → Nat) (levels : Nat) (items : List α) : List α :=
  (List.range levels).flatMap fun d => items.filter (depth · = d)

section

variable {depth : α → Nat} {levels : Nat} {items : List α}

theorem byLevel_succ (depth : α → Nat) (levels : Nat) (items : List α) :
    byLevel depth (levels + 1) items = byLevel depth levels items ++ items.filter (depth · = levels) := by
  simp [byLevel, List.range_succ]

theorem mem_byLevel {a : α} : a ∈ byLevel depth levels items ↔ a ∈ items ∧ depth a < levels := by
  simp only [byLevel, List.mem_flatMap, List.mem_range, List.mem_filter, decide_eq_true_eq]
  constructor
  · rintro ⟨d, within, mem, rfl⟩
    exact ⟨mem, within⟩
  · rintro ⟨mem, within⟩
    exact ⟨depth a, within, mem, rfl⟩

theorem map_byLevel (depth : β → Nat) (f : α → β) (levels : Nat) (items : List α) :
    (byLevel (fun a => depth (f a)) levels items).map f = byLevel depth levels (items.map f) := by
  simp [byLevel, List.map_flatMap, List.filter_map, Function.comp_def]

theorem filter_byLevel (p : α → Bool) :
    (byLevel depth levels items).filter p = byLevel depth levels (items.filter p) := by
  simp [byLevel, List.filter_flatMap, List.filter_filter, Bool.and_comm]

theorem pairwise_byLevel (depth : α → Nat) (levels : Nat) (items : List α) :
    (byLevel depth levels items).Pairwise (depth · ≤ depth ·) := by
  induction levels with
  | zero => exact List.Pairwise.nil
  | succ levels ih =>
    rw [byLevel_succ]
    refine List.pairwise_append.2 ⟨ih, ?_, fun a mem b mem' => ?_⟩
    · refine List.pairwise_of_forall_mem_list fun a mem b mem' => ?_
      simp only [List.mem_filter, decide_eq_true_eq] at mem mem'
      omega
    · have above := (mem_byLevel.1 mem).2
      simp only [List.mem_filter, decide_eq_true_eq] at mem'
      omega

/-- What does not get less deep has its levels one after the other. -/
theorem filter_lt_succ (rising : items.Pairwise (depth · ≤ depth ·)) (d : Nat) :
    items.filter (depth · < d + 1) = items.filter (depth · < d) ++ items.filter (depth · = d) := by
  induction items with
  | nil => rfl
  | cons a items ih =>
    obtain ⟨deeper, rest⟩ := List.pairwise_cons.1 rising
    rcases Nat.lt_or_ge (depth a) d with above | below
    · have notHere : depth a ≠ d := by omega
      have before : depth a < d + 1 := by omega
      simp only [List.filter_cons, above, notHere, before, decide_true, decide_false, if_true,
        Bool.false_eq_true, if_false, ih rest, List.cons_append]
    · have none : items.filter (depth · < d) = [] := by
        refine List.filter_eq_nil_iff.2 fun b mem => ?_
        have := deeper b mem
        simp only [decide_eq_true_eq]
        omega
      simp only [List.filter_cons, ih rest, none, List.nil_append]
      have same : depth a < d + 1 ↔ depth a = d := by omega
      simp [same, Nat.not_lt.2 below]

theorem byLevel_eq_filter (rising : items.Pairwise (depth · ≤ depth ·)) (levels : Nat) :
    byLevel depth levels items = items.filter (depth · < levels) := by
  induction levels with
  | zero => simp [byLevel]
  | succ levels ih => rw [byLevel_succ, ih, filter_lt_succ rising]

/-- The order by levels is the order of the list just if nothing is deeper than what follows it. -/
theorem byLevel_eq_self_iff (within : ∀ a ∈ items, depth a < levels) :
    byLevel depth levels items = items ↔ items.Pairwise (depth · ≤ depth ·) := by
  constructor
  · intro same
    rw [← same]
    exact pairwise_byLevel depth levels items
  · intro rising
    rw [byLevel_eq_filter rising]
    exact List.filter_eq_self.2 fun a mem => decide_eq_true (within a mem)

theorem byLevel_perm_filter (depth : α → Nat) (levels : Nat) (items : List α) :
    (byLevel depth levels items).Perm (items.filter (depth · < levels)) := by
  induction levels with
  | zero => simp [byLevel]
  | succ levels ih =>
    have parts := List.filter_append_perm (depth · < levels) (items.filter (depth · < levels + 1))
    have above : (items.filter (depth · < levels + 1)).filter (depth · < levels) =
        items.filter (depth · < levels) := by
      rw [List.filter_filter]
      refine List.filter_congr fun a _ => ?_
      simp only [← Bool.decide_and, decide_eq_decide]
      omega
    have here : (items.filter (depth · < levels + 1)).filter (fun a => !decide (depth a < levels)) =
        items.filter (depth · = levels) := by
      rw [List.filter_filter]
      refine List.filter_congr fun a _ => ?_
      simp only [← decide_not, ← Bool.decide_and, decide_eq_decide]
      omega
    rw [above, here] at parts
    rw [byLevel_succ]
    exact (ih.append_right _).trans parts

theorem byLevel_perm (within : ∀ a ∈ items, depth a < levels) :
    (byLevel depth levels items).Perm items := by
  have perm := byLevel_perm_filter depth levels items
  rwa [List.filter_eq_self.2 fun a mem => decide_eq_true (within a mem)] at perm

end

/-! Elements in the order of the text -/

/-- An element by its start tag alone. -/
def Element.head (e : Element) : Element := { e with children := [] }

mutual

/-- The elements of a node at the given depth in the order of the text, each with its depth. -/
def Node.heads (depth : Nat) : Node → List (Nat × Element)
  | .element name attrs children => (depth, ⟨name, attrs, []⟩) :: headsOf (depth + 1) children
  | _ => []

def headsOf (depth : Nat) : List Node → List (Nat × Element)
  | [] => []
  | node :: nodes => node.heads depth ++ headsOf depth nodes

end

/-- The elements of a row and all that is in them, in the order of the text. -/
def rowHeads (depth : Nat) (row : List Element) : List (Nat × Element) :=
  row.flatMap fun e => (depth, e.head) :: headsOf (depth + 1) e.children

theorem headsOf_eq_rowHeads (depth : Nat) (nodes : List Node) :
    headsOf depth nodes = rowHeads depth (elementsOf nodes) := by
  induction nodes with
  | nil => rw [headsOf]; rfl
  | cons node nodes ih =>
    rw [headsOf, ih]
    cases node <;> simp [Node.heads, elementsOf, rowHeads, Element.head]

@[simp] theorem headsOf_append (depth : Nat) (nodes more : List Node) :
    headsOf depth (nodes ++ more) = headsOf depth nodes ++ headsOf depth more := by
  induction nodes with
  | nil => simp [headsOf]
  | cons node nodes ih => simp [headsOf, ih]

mutual

theorem Node.heads_depth (d : Nat) (node : Node) :
    ∀ p ∈ node.heads d, d ≤ p.1 ∧ p.1 < d + node.depth := by
  cases node with
  | element name attrs children =>
    intro p mem
    rw [Node.heads] at mem
    rcases List.mem_cons.1 mem with rfl | mem
    · simp [Node.depth]
    · have := headsOf_depth (d + 1) children p mem
      simp only [Node.depth]
      omega
  | text content => simp [Node.heads]
  | comment => simp [Node.heads]
  | other => simp [Node.heads]

theorem headsOf_depth (d : Nat) (nodes : List Node) :
    ∀ p ∈ headsOf d nodes, d ≤ p.1 ∧ p.1 < d + depthOf nodes := by
  cases nodes with
  | nil => simp [headsOf]
  | cons node nodes =>
    intro p mem
    rw [headsOf] at mem
    simp only [depthOf]
    rcases List.mem_append.1 mem with mem | mem
    · have := node.heads_depth d p mem
      omega
    · have := headsOf_depth d nodes p mem
      omega

end

theorem filter_headsOf_of_lt {d k : Nat} (above : k < d) (nodes : List Node) :
    (headsOf d nodes).filter (·.1 = k) = [] := by
  refine List.filter_eq_nil_iff.2 fun p mem => ?_
  have := headsOf_depth d nodes p mem
  simp only [decide_eq_true_eq]
  omega

theorem filter_rowHeads_self (d : Nat) (row : List Element) :
    (rowHeads d row).filter (·.1 = d) = row.map fun e => (d, e.head) := by
  induction row with
  | nil => rfl
  | cons e row ih =>
    simp only [rowHeads, List.flatMap_cons, List.cons_append, List.filter_cons, List.filter_append,
      decide_true, if_true] at ih ⊢
    rw [filter_headsOf_of_lt (Nat.lt_succ_self d), ih]
    rfl

theorem filter_rowHeads_below {d k : Nat} (below : d < k) (row : List Element) :
    (rowHeads d row).filter (·.1 = k) =
      (rowHeads (d + 1) (row.flatMap fun e => elementsOf e.children)).filter (·.1 = k) := by
  induction row with
  | nil => rfl
  | cons e row ih =>
    have notHere : d ≠ k := by omega
    simp only [rowHeads, List.flatMap_cons, List.flatMap_append, List.filter_append, List.cons_append,
      List.filter_cons, notHere, decide_false, Bool.false_eq_true, if_false] at ih ⊢
    rw [ih, headsOf_eq_rowHeads]
    rfl

theorem map_head_levelsFrom (levels d : Nat) (row : List Element) :
    (levelsFrom levels row).map Element.head =
      (List.range levels).flatMap fun k => ((rowHeads d row).filter (·.1 = d + k)).map Prod.snd := by
  induction levels generalizing d row with
  | zero => rfl
  | succ levels ih =>
    rw [levelsFrom, List.map_append, ih (d + 1), List.range_succ_eq_map, List.flatMap_cons,
      List.flatMap_map]
    congr 1
    · simp [filter_rowHeads_self]
    · refine List.flatMap_congr fun k _ => ?_
      have level : d + 1 + k = d + k.succ := by omega
      rw [level, filter_rowHeads_below (k := d + k.succ) (by omega) row]

/-- **All elements come level by level.** -/
theorem map_head_allElements (nodes : List Node) :
    (allElements nodes).map Element.head =
      (byLevel Prod.fst (depthOf nodes) (headsOf 0 nodes)).map Prod.snd := by
  rw [allElements, map_head_levelsFrom _ 0, headsOf_eq_rowHeads, byLevel, List.map_flatMap]
  simp

/-! Elements as they are built -/

/-- The elements that some tokens open, in their order, from the given depth on. -/
def headsFrom : Nat → List Token → List (Nat × Element)
  | _, [] => []
  | depth, .opening name attrs :: tokens => (depth, ⟨name, attrs, []⟩) :: headsFrom (depth + 1) tokens
  | depth, .closing _ :: tokens => headsFrom (depth - 1) tokens
  | depth, _ :: tokens => headsFrom depth tokens

/-- The depth after some tokens. -/
def depthAfter : Nat → List Token → Nat
  | depth, [] => depth
  | depth, .opening _ _ :: tokens => depthAfter (depth + 1) tokens
  | depth, .closing _ :: tokens => depthAfter (depth - 1) tokens
  | depth, _ :: tokens => depthAfter depth tokens

theorem headsFrom_append (depth : Nat) (tokens more : List Token) :
    headsFrom depth (tokens ++ more) =
      headsFrom depth tokens ++ headsFrom (depthAfter depth tokens) more := by
  induction tokens generalizing depth with
  | nil => rfl
  | cons token tokens ih => cases token <;> simp [headsFrom, depthAfter, ih]

/-- The elements around the present place and those in them that are closed, in the order of the text. -/
def pendingHeads : List Pending → List (Nat × Element)
  | [] => []
  | current :: stack =>
    pendingHeads stack ++
      (stack.length, ⟨current.name, current.attrs, []⟩) :: headsOf (stack.length + 1) current.children.reverse

@[simp] theorem heads_nodeOf (depth : Nat) (token : Token) : (nodeOf token).heads depth = [] := by
  cases token <;> simp [nodeOf, Node.heads]

theorem headsFrom_cons_of_not_tag {token : Token} (notOpening : ∀ name attrs, token ≠ .opening name attrs)
    (notClosing : ∀ name, token ≠ .closing name) (depth : Nat) (tokens : List Token) :
    headsFrom depth (token :: tokens) = headsFrom depth tokens := by
  cases token with
  | opening name attrs => exact absurd rfl (notOpening name attrs)
  | closing name => exact absurd rfl (notClosing name)
  | _ => rfl

/-- A token leaves the order of the text as it is: what is closed, what is pending and what is still to
come are at all times the elements of the document. -/
theorem headsOf_build {top nodes : List Node} {stack : List Pending} {tokens : List Token}
    (h : build top stack tokens = some nodes) :
    headsOf 0 nodes.reverse =
      headsOf 0 top.reverse ++ pendingHeads stack ++ headsFrom stack.length tokens := by
  fun_induction build top stack tokens with
  | case1 top =>
    obtain rfl := Option.some.inj h
    simp [pendingHeads, headsFrom]
  | case2 => cases h
  | case3 top stack name attrs tokens ih =>
    rw [ih h]
    simp [pendingHeads, headsFrom, headsOf]
  | case4 => cases h
  | case5 => cases h
  | case6 top current name tokens same node ih =>
    rw [ih h]
    simp [node, pendingHeads, headsFrom, headsOf, Node.heads]
  | case7 top current name tokens same node outer stack ih =>
    rw [ih h]
    simp [node, pendingHeads, headsFrom, headsOf, Node.heads]
  | case8 top token tokens notOpening notClosing ih =>
    rw [ih h, headsFrom_cons_of_not_tag notOpening notClosing]
    simp [headsOf]
  | case9 top current stack token tokens notOpening notClosing ih =>
    rw [ih h, headsFrom_cons_of_not_tag notOpening notClosing]
    simp [pendingHeads, headsOf]

end ShopLint.Xml
