import ShopLint.Area
import ShopLint.Proofs.Text.Search
import Mathlib.Tactic.IntervalCases
import Mathlib.Tactic.Push

/-!
Which area a path belongs to. The areas are tried in a fixed order, wherever their directories stand in
the path. So a path with directories of several areas belongs to the one that stands first just if none
of the others is tried before it.
-/

namespace ShopLint

/-- No item that is accepted stands before the one that is found. -/
theorem idxOf_le_of_find? {α : Type} [BEq α] [LawfulBEq α] {p : α → Bool} {items : List α} {found item : α}
    (h : items.find? p = some found) (mem : item ∈ items) (accepted : p item) :
    items.idxOf found ≤ items.idxOf item := by
  induction items with
  | nil => cases mem
  | cons first others ih =>
    by_cases here : p first
    · rw [List.find?_cons_of_pos here] at h
      obtain rfl := Option.some.inj h
      rw [List.idxOf_cons_self]
      exact Nat.zero_le _
    · rw [List.find?_cons_of_neg here] at h
      have foundLater : first ≠ found := by
        rintro rfl
        exact here (List.find?_some h)
      have itemLater : first ≠ item := by
        rintro rfl
        exact here accepted
      rw [List.idxOf_cons_ne _ foundLater, List.idxOf_cons_ne _ itemLater]
      exact Nat.succ_le_succ (ih h ((List.mem_cons.1 mem).resolve_left (Ne.symm itemLater)))

namespace Area

/-- The directory of an area stands in the path after `before`. -/
def StandsAfter (path : String) (before : List Char) (area : Area) : Prop :=
  area ∈ withDirectory ∧ ∃ rest, path.toList = before ++ area.segment.toList ++ rest

def StandsIn (path : String) (area : Area) : Prop := ∃ before, StandsAfter path before area

/-- The directory of the area stands in the path, and none of any area stands further to the left. -/
def IsLeftmost (path : String) (area : Area) : Prop :=
  ∃ before, StandsAfter path before area ∧
    ∀ after other, StandsAfter path after other → before.length ≤ after.length

theorem segment_toList (area : Area) :
    area.segment.toList = "/etc/".toList ++ (area.name.toList ++ ['/']) := by
  simp [segment]

theorem slash_not_mem_name (area : Area) : '/' ∉ area.name.toList := by
  cases area <;> decide

theorem name_injective {area other : Area} (h : area.name = other.name) : area = other := by
  revert h
  cases area <;> cases other <;> decide

/-- At one place stands the directory of one area. -/
theorem StandsAfter.unique {path : String} {before after : List Char} {area other : Area}
    (h : StandsAfter path before area) (h' : StandsAfter path after other)
    (same : before.length = after.length) : area = other := by
  obtain ⟨_, rest, split⟩ := h
  obtain ⟨_, rest', split'⟩ := h'
  rw [split, List.append_assoc, List.append_assoc] at split'
  obtain ⟨_, tails⟩ := List.append_inj split' same
  simp only [segment_toList, List.append_assoc] at tails
  have names := List.append_cancel_left tails
  -- the name goes up to the next slash
  have upToSlash (a : Area) (more : List Char) :
      (a.name.toList ++ (['/'] ++ more)).takeWhile (· ≠ '/') = a.name.toList := by
    refine Chars.takeWhile_until (fun c mem => ?_) (by decide) more
    simp only [decide_eq_true_eq]
    rintro rfl
    exact slash_not_mem_name a mem
  have spelled := congrArg (List.takeWhile (· ≠ '/')) names
  rw [upToSlash, upToSlash] at spelled
  exact name_injective (String.toList_inj.1 spelled)

theorem IsLeftmost.unique {path : String} {area other : Area} (h : IsLeftmost path area)
    (h' : IsLeftmost path other) : area = other := by
  obtain ⟨before, stands, leftmost⟩ := h
  obtain ⟨after, stands', leftmost'⟩ := h'
  exact stands.unique stands' (Nat.le_antisymm (leftmost _ _ stands') (leftmost' _ _ stands))

theorem exists_isLeftmost {path : String} {area : Area} (h : StandsIn path area) :
    ∃ first, IsLeftmost path first := by
  obtain ⟨before, stands⟩ := h
  -- by induction on how much stands before: either nothing is further left, or something is
  induction length : before.length using Nat.strongRecOn generalizing before area with
  | ind n ih =>
    by_cases leftmost : ∀ after other, StandsAfter path after other → before.length ≤ after.length
    · exact ⟨area, before, stands, leftmost⟩
    · push Not at leftmost
      obtain ⟨after, other, stands', shorter⟩ := leftmost
      exact ih after.length (length ▸ shorter) after stands' rfl

theorem contains_segment_iff {path : String} {area : Area} (tried : area ∈ withDirectory) :
    Text.contains path area.segment ↔ StandsIn path area := by
  rw [Text.contains, Chars.contains_iff]
  constructor
  · rintro ⟨before, rest, split⟩
    exact ⟨before, tried, rest, split⟩
  · rintro ⟨before, _, rest, split⟩
    exact ⟨before, rest, split⟩

theorem global_not_tried : global ∉ withDirectory := by decide

/-- Either no directory of an area stands in the path, or the path belongs to one that does and that no
other is tried before. -/
theorem ofPath_cases (path : String) :
    (ofPath path = global ∧ ∀ area, ¬StandsIn path area) ∨
    (StandsIn path (ofPath path) ∧ ∀ other, StandsIn path other →
      withDirectory.idxOf (ofPath path) ≤ withDirectory.idxOf other) := by
  rw [ofPath]
  cases found : withDirectory.find? fun area => Text.contains path area.segment with
  | none =>
    refine .inl ⟨rfl, fun area stands => ?_⟩
    have tried : area ∈ withDirectory := stands.choose_spec.1
    exact List.find?_eq_none.1 found area tried ((contains_segment_iff tried).2 stands)
  | some first =>
    have tried : first ∈ withDirectory := List.mem_of_find?_eq_some found
    have contained : Text.contains path first.segment := by simpa using List.find?_some found
    have stands : StandsIn path first := (contains_segment_iff tried).1 contained
    refine .inr ⟨stands, fun other stands' => ?_⟩
    have tried' : other ∈ withDirectory := stands'.choose_spec.1
    exact idxOf_le_of_find? found tried' ((contains_segment_iff tried').2 stands')

/-- **Which area a path belongs to.** It is the global one just if no directory of another area stands in
the path. Otherwise one of those directories is leftmost, and the path belongs to its area just if no area
whose directory stands in the path too is tried before it. -/
theorem ofPath_leftmost_iff (path : String) :
    (ofPath path = global ↔ ∀ area, ¬StandsIn path area) ∧
    ((∃ area, StandsIn path area) → ∃! area, IsLeftmost path area) ∧
    ∀ area, IsLeftmost path area →
      (ofPath path = area ↔
        ∀ other, StandsIn path other → withDirectory.idxOf area ≤ withDirectory.idxOf other) := by
  refine ⟨?_, ?_, ?_⟩
  · rcases ofPath_cases path with ⟨isGlobal, none⟩ | ⟨⟨before, tried, rest, split⟩, _⟩
    · exact ⟨fun _ => none, fun _ => isGlobal⟩
    · constructor
      · intro isGlobal
        rw [isGlobal] at tried
        exact absurd tried global_not_tried
      · intro none
        exact absurd ⟨before, tried, rest, split⟩ (none (ofPath path))
  · rintro ⟨area, stands⟩
    obtain ⟨first, leftmost⟩ := exists_isLeftmost stands
    exact ⟨first, leftmost, fun other leftmost' => leftmost'.unique leftmost⟩
  · rintro area ⟨before, stands, _⟩
    rcases ofPath_cases path with ⟨_, none⟩ | ⟨stands', least⟩
    · exact absurd ⟨before, stands⟩ (none area)
    · constructor
      · rintro rfl
        exact least
      · intro least'
        have same := Nat.le_antisymm (least area ⟨before, stands⟩) (least' _ stands')
        exact (List.idxOf_inj stands'.choose_spec.1).1 same

/-- A directory for the shop's customers inside one for its staff. -/
def nestedPath : String := "/srv/etc/adminhtml/etc/frontend/di.xml"

/-- The leftmost directory is that of the staff, and yet the path belongs to the customers. -/
theorem ofPath_leftmost_iff_nested :
    IsLeftmost nestedPath adminhtml ∧ StandsIn nestedPath frontend ∧ ofPath nestedPath = frontend ∧
      ofPath nestedPath ≠ adminhtml := by
  have outer : StandsAfter nestedPath "/srv".toList adminhtml :=
    ⟨by decide, "etc/frontend/di.xml".toList, by decide⟩
  have inner : StandsIn nestedPath frontend :=
    ⟨"/srv/etc/adminhtml".toList, by decide, "di.xml".toList, by decide⟩
  have leftmost : IsLeftmost nestedPath adminhtml := by
    refine ⟨_, outer, fun after other ⟨_, rest, split⟩ => ?_⟩
    rw [segment_toList, List.append_assoc, List.append_assoc] at split
    by_contra further
    have here : (nestedPath.toList.drop after.length).take 5 = "/etc/".toList := by
      rw [split, List.drop_left, List.take_left' (by decide)]
    have short : after.length < 4 := Nat.lt_of_not_le further
    generalize after.length = place at here short
    interval_cases place <;> exact absurd here (by decide)
  have stepped : ofPath nestedPath ≠ adminhtml := by
    intro belongs
    have least := ((ofPath_leftmost_iff nestedPath).2.2 adminhtml leftmost).1 belongs frontend inner
    exact absurd least (by decide)
  exact ⟨leftmost, inner, by decide +kernel, stepped⟩

end Area

end ShopLint
