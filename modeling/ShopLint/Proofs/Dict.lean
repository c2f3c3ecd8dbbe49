import ShopLint.Dict
import Mathlib.Data.List.Forall2

/-!
Looking up what was put into a dictionary, and dictionaries with the same keys whose values
correspond.
-/

namespace ShopLint.Dict

variable {α β : Type}

theorem lookup_eq_none_of_lt {key : String} {entries : List (String × α)}
    (h : ∀ e ∈ entries, key < e.1) : entries.lookup key = none := by
  rw [List.lookup_eq_none_iff]
  intro e mem
  have lt := h e mem
  simpa using fun eq => String.lt_irrefl _ (eq ▸ lt)

theorem lookup_alterList_self (key : String) (f : Option α → α) {entries : List (String × α)}
    (h : entries.Pairwise fun a b => a.1 < b.1) :
    (alterList key f entries).lookup key = some (f (entries.lookup key)) := by
  induction entries with
  | nil => simp [alterList]
  | cons head rest ih =>
    obtain ⟨k, v⟩ := head
    obtain ⟨first, others⟩ := List.pairwise_cons.1 h
    simp only [alterList]
    split
    next lt =>
      have absent : ((k, v) :: rest).lookup key = none := by
        apply lookup_eq_none_of_lt
        intro e mem
        rcases List.mem_cons.1 mem with rfl | mem
        · exact lt
        · exact String.lt_trans lt (first e mem)
      simp [absent]
    next =>
      split
      next eq => subst eq; simp
      next ne =>
        have ne' : (key == k) = false := by simpa using ne
        simp only [List.lookup_cons, ne']
        exact ih others

theorem lookup_alterList_ne {key other : String} (ne : other ≠ key) (f : Option α → α)
    (entries : List (String × α)) :
    (alterList key f entries).lookup other = entries.lookup other := by
  have ne' : (other == key) = false := by simpa using ne
  induction entries with
  | nil => simp [alterList, List.lookup_cons, ne']
  | cons head rest ih =>
    obtain ⟨k, v⟩ := head
    simp only [alterList]
    split
    next => simp [List.lookup_cons, ne']
    next =>
      split
      next eq => subst eq; simp [List.lookup_cons, ne']
      next => simp only [List.lookup_cons, ih]

@[simp] theorem get?_alter_self (dict : Dict α) (key : String) (f : Option α → α) :
    (dict.alter key f).get? key = some (f (dict.get? key)) :=
  lookup_alterList_self key f dict.sorted

theorem get?_alter_ne (dict : Dict α) {key other : String} (ne : other ≠ key) (f : Option α → α) :
    (dict.alter key f).get? other = dict.get? other :=
  lookup_alterList_ne ne f dict.entries

@[simp] theorem get?_empty (key : String) : ({} : Dict α).get? key = none := rfl

theorem get?_insert (dict : Dict α) (key : String) (value : α) (other : String) :
    (dict.insert key value).get? other = if other = key then some value else dict.get? other := by
  split
  next eq => rw [eq, insert, get?_alter_self]
  next ne => exact get?_alter_ne dict ne _

theorem mem_entries_iff (dict : Dict α) (key : String) (value : α) :
    (key, value) ∈ dict.entries ↔ dict.get? key = some value := by
  obtain ⟨entries, sorted⟩ := dict
  simp only [get?]
  induction entries with
  | nil => simp
  | cons head rest ih =>
    obtain ⟨k, v⟩ := head
    obtain ⟨first, others⟩ := List.pairwise_cons.1 sorted
    rw [List.mem_cons, ih others, List.lookup_cons]
    by_cases eq : key = k
    · subst eq
      have absent : rest.lookup key = none := lookup_eq_none_of_lt first
      simp [absent, eq_comm]
    · have ne : (key == k) = false := by simpa using eq
      simp [ne, eq]

theorem entries_nodup (dict : Dict α) : dict.entries.Nodup := by
  refine dict.sorted.imp fun {a b} lt eq => ?_
  subst eq
  exact String.lt_irrefl _ lt

/-- Dictionaries that answer alike are equal. -/
theorem ext_get? {a b : Dict α} (h : ∀ key, a.get? key = b.get? key) : a = b := by
  have same : a.entries.Perm b.entries := by
    rw [List.perm_ext_iff_of_nodup a.entries_nodup b.entries_nodup]
    intro ⟨key, value⟩
    rw [mem_entries_iff, mem_entries_iff, h key]
  refine ext (same.eq_of_pairwise ?_ a.sorted b.sorted)
  intro x y _ _ lt gt
  exact absurd gt (String.lt_asymm lt)

theorem mem_values_iff (dict : Dict α) (value : α) :
    value ∈ dict.values ↔ ∃ key, dict.get? key = some value := by
  simp only [values, List.mem_map, Prod.exists, exists_eq_right, mem_entries_iff]

theorem mem_keys_iff (dict : Dict α) (key : String) :
    key ∈ dict.keys ↔ ∃ value, dict.get? key = some value := by
  simp only [keys, List.mem_map, Prod.exists, exists_and_right, exists_eq_right, mem_entries_iff]

theorem mem_keys_alter (dict : Dict α) (key : String) (f : Option α → α) (other : String) :
    other ∈ (dict.alter key f).keys ↔ other = key ∨ other ∈ dict.keys := by
  rw [mem_keys_iff, mem_keys_iff]
  by_cases same : other = key
  · subst same
    simp
  · rw [get?_alter_ne dict same]
    simp [same]

theorem mem_keys_ofList (entries : List (String × α)) (key : String) :
    key ∈ (ofList entries).keys ↔ key ∈ entries.map Prod.fst := by
  have filled (dict : Dict α) : key ∈ (entries.foldl (fun d e => d.insert e.1 e.2) dict).keys ↔
      key ∈ dict.keys ∨ key ∈ entries.map Prod.fst := by
    induction entries generalizing dict with
    | nil => simp
    | cons e entries ih =>
      rw [List.foldl_cons, ih, insert, mem_keys_alter, List.map_cons, List.mem_cons, or_assoc,
        or_left_comm]
  rw [ofList, filled]
  simp [keys, EmptyCollection.emptyCollection, empty]

/-- Of the items with one key the last counts. -/
theorem get?_foldl_insert {γ : Type} (items : List γ) (key : γ → String) (value : γ → α) (dict : Dict α)
    (name : String) :
    ((items.map fun item => (key item, value item)).foldl (fun dict e => dict.insert e.1 e.2) dict).get? name =
      ((items.reverse.find? fun item => key item = name).map value).or (dict.get? name) := by
  induction items generalizing dict with
  | nil => rfl
  | cons item items ih =>
    rw [List.map_cons, List.foldl_cons, ih, List.reverse_cons, List.find?_append, get?_insert]
    cases items.reverse.find? fun item => key item = name with
    | some later => rfl
    | none =>
      by_cases same : key item = name
      · simp [same]
      · simp [same, Ne.symm same]

theorem get?_ofList_map {γ : Type} (items : List γ) (key : γ → String) (value : γ → α) (name : String) :
    (ofList (items.map fun item => (key item, value item))).get? name =
      (items.reverse.find? fun item => key item = name).map value := by
  rw [ofList, get?_foldl_insert, get?_empty, Option.or_none]

/-- A dictionary holds only entries that it was made of. -/
theorem mem_of_mem_entries_ofList {entries : List (String × α)} {e : String × α}
    (h : e ∈ (ofList entries).entries) : e ∈ entries := by
  obtain ⟨key, value⟩ := e
  have filled (dict : Dict α) :
      (key, value) ∈ (entries.foldl (fun d e => d.insert e.1 e.2) dict).entries →
        (key, value) ∈ dict.entries ∨ (key, value) ∈ entries := by
    clear h
    induction entries generalizing dict with
    | nil => exact .inl
    | cons first rest ih =>
      intro mem
      rcases ih _ mem with old | later
      · rw [mem_entries_iff, get?_insert] at old
        split at old
        next same =>
          rw [same, ← Option.some.inj old]
          exact .inr List.mem_cons_self
        next => exact .inl ((mem_entries_iff dict key value).2 old)
      · exact .inr (List.mem_cons_of_mem _ later)
  exact (filled {} h).resolve_left List.not_mem_nil

/-! Entries in the order of their keys -/

theorem alterList_of_lt {key : String} (f : Option α → α) {entries : List (String × α)}
    (h : ∀ e ∈ entries, e.1 < key) : alterList key f entries = entries ++ [(key, f none)] := by
  induction entries with
  | nil => rfl
  | cons e entries ih =>
    have before := h e List.mem_cons_self
    rw [alterList, if_neg (String.lt_asymm before), if_neg (fun same => String.lt_irrefl _ (same ▸ before)),
      ih fun e mem => h e (List.mem_cons_of_mem _ mem)]
    rfl

theorem entries_foldl_insert (dict : Dict α) {entries : List (String × α)}
    (h : (dict.entries ++ entries).Pairwise fun a b => a.1 < b.1) :
    (entries.foldl (fun d e => d.insert e.1 e.2) dict).entries = dict.entries ++ entries := by
  induction entries generalizing dict with
  | nil => simp
  | cons e entries ih =>
    have last : (dict.insert e.1 e.2).entries = dict.entries ++ [e] :=
      alterList_of_lt _ fun d mem => (List.pairwise_append.1 h).2.2 d mem e List.mem_cons_self
    have regrouped : dict.entries ++ e :: entries = (dict.insert e.1 e.2).entries ++ entries := by
      rw [last, List.append_assoc, List.singleton_append]
    rw [regrouped] at h ⊢
    exact ih (dict.insert e.1 e.2) h

/-- A list in the order of its keys is the list of the dictionary made from it. -/
theorem entries_ofList {entries : List (String × α)} (h : entries.Pairwise fun a b => a.1 < b.1) :
    (ofList entries).entries = entries := entries_foldl_insert {} h

theorem ofList_entries (dict : Dict α) : ofList dict.entries = dict := ext (entries_ofList dict.sorted)

/-- A new key comes in between entries that stay as they are. -/
theorem alterList_of_absent {key : String} (f : Option α → α) {entries : List (String × α)}
    (h : ∀ e ∈ entries, e.1 ≠ key) :
    ∃ before after, entries = before ++ after ∧
      alterList key f entries = before ++ (key, f none) :: after := by
  induction entries with
  | nil => exact ⟨[], [], rfl, rfl⟩
  | cons e entries ih =>
    rw [alterList]
    split
    · exact ⟨[], e :: entries, rfl, rfl⟩
    · rw [if_neg (Ne.symm (h e List.mem_cons_self))]
      obtain ⟨before, after, rfl, eq⟩ := ih fun e mem => h e (List.mem_cons_of_mem _ mem)
      exact ⟨e :: before, after, rfl, by rw [eq]; rfl⟩

/-! Dictionaries whose values correspond -/

/-- The same keys, and values of one key stand in the relation `R`. -/
def Rel (R : α → β → Prop) (a : Dict α) (b : Dict β) : Prop :=
  List.Forall₂ (fun x y => x.1 = y.1 ∧ R x.2 y.2) a.entries b.entries

theorem Rel.empty (R : α → β → Prop) : Rel R {} {} := List.Forall₂.nil

theorem Rel.keys_eq {R : α → β → Prop} {a : Dict α} {b : Dict β} (h : Rel R a b) :
    a.keys = b.keys := by
  have same : List.Forall₂ (· = ·) (a.entries.map Prod.fst) (b.entries.map Prod.fst) :=
    List.forall₂_map_left_iff.2 (List.forall₂_map_right_iff.2 (h.imp fun _ _ p => p.1))
  exact List.forall₂_eq_eq_eq ▸ same

theorem Rel.values {R : α → β → Prop} {a : Dict α} {b : Dict β} (h : Rel R a b) :
    List.Forall₂ R a.values b.values :=
  List.forall₂_map_left_iff.2 (List.forall₂_map_right_iff.2 (h.imp fun _ _ p => p.2))

theorem rel_alterList {R : α → β → Prop} {f : Option α → α} {g : Option β → β}
    {as : List (String × α)} {bs : List (String × β)} (key : String)
    (absent : R (f none) (g none)) (present : ∀ a b, R a b → R (f (some a)) (g (some b)))
    (h : List.Forall₂ (fun x y => x.1 = y.1 ∧ R x.2 y.2) as bs) :
    List.Forall₂ (fun x y => x.1 = y.1 ∧ R x.2 y.2) (alterList key f as) (alterList key g bs) := by
  induction h with
  | nil => exact .cons ⟨rfl, absent⟩ .nil
  | @cons x y xs ys head rest ih =>
    obtain ⟨k, a⟩ := x
    obtain ⟨k', b⟩ := y
    obtain ⟨eq, rel⟩ := head
    simp only at eq rel
    subst eq
    simp only [alterList]
    split
    · exact .cons ⟨rfl, absent⟩ (.cons ⟨rfl, rel⟩ rest)
    · split
      · exact .cons ⟨rfl, present a b rel⟩ rest
      · exact .cons ⟨rfl, rel⟩ ih

theorem Rel.alter {R : α → β → Prop} {a : Dict α} {b : Dict β} (h : Rel R a b) (key : String)
    {f : Option α → α} {g : Option β → β} (absent : R (f none) (g none))
    (present : ∀ x y, R x y → R (f (some x)) (g (some y))) : Rel R (a.alter key f) (b.alter key g) :=
  rel_alterList key absent present h

theorem rel_lookup {R : α → β → Prop} {as : List (String × α)} {bs : List (String × β)} (key : String)
    (h : List.Forall₂ (fun x y => x.1 = y.1 ∧ R x.2 y.2) as bs) :
    Option.Rel R (as.lookup key) (bs.lookup key) := by
  induction h with
  | nil => exact .none
  | @cons x y xs ys head rest ih =>
    obtain ⟨k, v⟩ := x
    obtain ⟨k', w⟩ := y
    obtain ⟨eq, rel⟩ := head
    simp only at eq rel
    subst eq
    simp only [List.lookup_cons]
    split
    · exact .some rel
    · exact ih

theorem Rel.get? {R : α → β → Prop} {a : Dict α} {b : Dict β} (h : Rel R a b) (key : String) :
    Option.Rel R (a.get? key) (b.get? key) :=
  rel_lookup key h

end ShopLint.Dict
