import ShopLint.Text.Scan

/-!
What a search finds. A reader that succeeds after some first part of a text reads there (`ReadsAt`);
a search finds the shortest such part, and nothing just if there is none.
-/

namespace ShopLint.Scan

variable {α : Type}

/-- The reader succeeds in the text after `before`, where `prev` stands before the whole text. -/
def ReadsAt (read : Reader α) (prev : Option Char) (text before : List Char) (a : α) : Prop :=
  ∃ rest, text = before ++ rest ∧ read (before.getLast?.or prev) rest = some a

/-- The character before a place, as one passes over a character. -/
theorem getLast?_cons_or (c : Char) (before : List Char) (prev : Option Char) :
    (c :: before).getLast?.or prev = before.getLast?.or (some c) := by
  rw [List.getLast?_cons]
  cases before.getLast? <;> rfl

theorem readsAt_nil {read : Reader α} {prev : Option Char} {text : List Char} {a : α} :
    ReadsAt read prev text [] a ↔ read prev text = some a := by
  simp [ReadsAt]

theorem readsAt_cons {read : Reader α} {prev : Option Char} {c d : Char} {cs before : List Char} {a : α} :
    ReadsAt read prev (c :: cs) (d :: before) a ↔ d = c ∧ ReadsAt read (some c) cs before a := by
  simp only [ReadsAt, getLast?_cons_or, List.cons_append, List.cons.injEq]
  constructor
  · rintro ⟨rest, ⟨rfl, rfl⟩, found⟩
    exact ⟨rfl, rest, rfl, found⟩
  · rintro ⟨rfl, rest, rfl, found⟩
    exact ⟨rest, ⟨rfl, rfl⟩, found⟩

/-- A search that finds nothing: the reader succeeds nowhere. -/
theorem first_eq_none_iff {read : Reader α} {prev : Option Char} {text : List Char} :
    first read prev text = none ↔ ∀ before a, ¬ReadsAt read prev text before a := by
  induction text generalizing prev with
  | nil =>
    simp only [first, Option.map_eq_none_iff]
    constructor
    · rintro none before a ⟨rest, split, found⟩
      obtain ⟨rfl, rfl⟩ := List.append_eq_nil_iff.1 split.symm
      simp [none] at found
    · intro nowhere
      rw [Option.eq_none_iff_forall_ne_some]
      exact fun a found => nowhere [] a (readsAt_nil.2 found)
  | cons c cs ih =>
    simp only [first]
    cases here : read prev (c :: cs) with
    | some a =>
      simp only [reduceCtorEq, false_iff]
      exact fun nowhere => nowhere [] a (readsAt_nil.2 here)
    | none =>
      simp only [Option.map_eq_none_iff, ih]
      constructor
      · intro nowhere before a reads
        cases before with
        | nil => simp [readsAt_nil, here] at reads
        | cons d before => exact nowhere before a (readsAt_cons.1 reads).2
      · exact fun nowhere before a reads => nowhere (c :: before) a (readsAt_cons.2 ⟨rfl, reads⟩)

/-- At one place there is one thing to read, and places are told apart by how much stands before. -/
theorem ReadsAt.unique {read : Reader α} {prev : Option Char} {text before other : List Char} {a b : α}
    (h : ReadsAt read prev text before a) (h' : ReadsAt read prev text other b)
    (same : before.length = other.length) : before = other ∧ a = b := by
  obtain ⟨rest, split, found⟩ := h
  obtain ⟨rest', split', found'⟩ := h'
  obtain ⟨rfl, rfl⟩ := List.append_inj (split.symm.trans split') same
  exact ⟨rfl, Option.some.inj (found.symm.trans found')⟩

/-- What a search finds can be read there, and nothing can be read before. -/
theorem leftmost_of_first {read : Reader α} {prev : Option Char} {text before : List Char} {a : α}
    (h : first read prev text = some (before, a)) :
    ReadsAt read prev text before a ∧
      ∀ earlier b, ReadsAt read prev text earlier b → before.length ≤ earlier.length := by
  induction text generalizing prev before with
  | nil =>
    obtain ⟨b, found, eq⟩ := Option.map_eq_some_iff.1 h
    cases eq
    exact ⟨readsAt_nil.2 found, fun _ _ _ => Nat.zero_le _⟩
  | cons c cs ih =>
    simp only [first] at h
    split at h
    next found =>
      cases h
      exact ⟨readsAt_nil.2 found, fun _ _ _ => Nat.zero_le _⟩
    next notHere =>
      obtain ⟨⟨later, b⟩, found, eq⟩ := Option.map_eq_some_iff.1 h
      cases eq
      obtain ⟨reads, leftmost⟩ := ih found
      refine ⟨readsAt_cons.2 ⟨rfl, reads⟩, fun earlier b reads' => ?_⟩
      cases earlier with
      | nil => simp [readsAt_nil, notHere] at reads'
      | cons d earlier => exact Nat.succ_le_succ (leftmost earlier b (readsAt_cons.1 reads').2)

/-- A search finds the leftmost of all that can be read. -/
theorem find?_eq_some_iff {read : Reader α} {text before : List Char} {a : α} :
    find? read text = some (before, a) ↔
      ReadsAt read none text before a ∧
        ∀ earlier b, ReadsAt read none text earlier b → before.length ≤ earlier.length := by
  constructor
  · exact leftmost_of_first
  · rintro ⟨reads, leftmost⟩
    cases found : find? read text with
    | none => exact absurd reads (first_eq_none_iff.1 found before a)
    | some p =>
      obtain ⟨other, b⟩ := p
      obtain ⟨reads', leftmost'⟩ := leftmost_of_first found
      have same := Nat.le_antisymm (leftmost other b reads') (leftmost' before a reads)
      obtain ⟨rfl, rfl⟩ := reads.unique reads' same
      rfl

/-- Each of the finds was read somewhere. -/
theorem exists_of_mem_all {read : Reader (α × List Char)} {text : List Char} {a : α}
    (h : a ∈ all read text) : ∃ prev place rest, read prev place = some (a, rest) := by
  rw [all] at h
  generalize (0 : Nat) = skip at h
  generalize (none : Option Char) = prev at h
  induction text generalizing skip prev with
  | nil => cases skip <;> simp [allFrom] at h
  | cons c cs ih =>
    cases skip with
    | succ skip => exact ih _ _ h
    | zero =>
      simp only [allFrom] at h
      split at h
      next b rest found =>
        rcases List.mem_cons.1 h with rfl | later
        · exact ⟨_, _, _, found⟩
        · exact ih _ _ later
      next => exact ih _ _ h

/-! All finds, piece by piece -/

section

variable {read : Reader (α × List Char)}

theorem allFrom_skip (front rest : List Char) (prev : Option Char) :
    allFrom read front.length prev (front ++ rest) = allFrom read 0 (front.getLast?.or prev) rest := by
  induction front generalizing prev with
  | nil => rfl
  | cons c cs ih =>
    rw [List.length_cons, List.cons_append, allFrom, ih, getLast?_cons_or]

/-- A find is followed by the finds in the text after it. -/
theorem allFrom_of_read {prev : Option Char} {piece rest : List Char} {a : α} (nonempty : piece ≠ [])
    (h : read prev (piece ++ rest) = some (a, rest)) :
    allFrom read 0 prev (piece ++ rest) = a :: allFrom read 0 (piece.getLast?.or prev) rest := by
  obtain ⟨c, cs, rfl⟩ := List.exists_cons_of_ne_nil nonempty
  have left : (cs ++ rest).length - rest.length = cs.length := by simp
  rw [List.cons_append] at h ⊢
  simp only [allFrom, h, left, allFrom_skip, getLast?_cons_or]

/-- A piece in which nothing can be read adds no finds. -/
theorem allFrom_of_unread {prev : Option Char} {piece rest : List Char}
    (h : ∀ front back, piece = front ++ back → back ≠ [] →
      read (front.getLast?.or prev) (back ++ rest) = none) :
    allFrom read 0 prev (piece ++ rest) = allFrom read 0 (piece.getLast?.or prev) rest := by
  induction piece generalizing prev with
  | nil => rfl
  | cons c cs ih =>
    have here : read prev (c :: (cs ++ rest)) = none := h [] (c :: cs) rfl (List.cons_ne_nil c cs)
    have later : allFrom read 0 (some c) (cs ++ rest) = allFrom read 0 (cs.getLast?.or (some c)) rest := by
      apply ih
      intro front back split nonempty
      rw [← getLast?_cons_or c front prev]
      exact h (c :: front) back (by rw [split, List.cons_append]) nonempty
    simp only [List.cons_append, allFrom, here, later, getLast?_cons_or]

end

/-- Characters with which nothing starts that is erased are kept. -/
theorem erase_append {read : List Char → Option (List Char)} {front : List Char}
    (h : ∀ c ∈ front, ∀ more, read (c :: more) = none) (rest : List Char) :
    erase read (front ++ rest) = front ++ erase read rest := by
  induction front with
  | nil => rfl
  | cons c cs ih =>
    have later := ih fun d mem => h d (List.mem_cons_of_mem c mem)
    have here : read (c :: (cs ++ rest)) = none := h c List.mem_cons_self _
    rw [List.cons_append, erase, eraseFrom]
    simp only [here, List.cons_append]
    exact congrArg (c :: ·) later

end ShopLint.Scan
