/-!
Dictionaries with text keys, kept in strictly increasing order of their keys. Two dictionaries with
the same entries are equal, whatever the order in which they were filled.
-/

namespace ShopLint

/-- Entries in strictly increasing key order. -/
structure Dict (α : Type) where
  entries : List (String × α)
  sorted : entries.Pairwise fun a b => a.1 < b.1

namespace Dict

variable {α β : Type}

def empty : Dict α := ⟨[], .nil⟩

instance : EmptyCollection (Dict α) := ⟨empty⟩

instance : Inhabited (Dict α) := ⟨empty⟩

@[ext] theorem ext {a b : Dict α} (h : a.entries = b.entries) : a = b := by
  cases a; cases b; simp_all

instance [DecidableEq α] : DecidableEq (Dict α) := fun a b =>
  if h : a.entries = b.entries then isTrue (ext h) else isFalse fun e => h (e ▸ rfl)

/-- The list with `key` set to what `f` makes of its present value. -/
def alterList (key : String) (f : Option α → α) : List (String × α) → List (String × α)
  | [] => [(key, f none)]
  | (k, v) :: rest =>
    if key < k then (key, f none) :: (k, v) :: rest
    else if key = k then (k, f (some v)) :: rest
    else (k, v) :: alterList key f rest

theorem mem_alterList {key : String} {f : Option α → α} {entries : List (String × α)}
    {e : String × α} (h : e ∈ alterList key f entries) : e.1 = key ∨ e ∈ entries := by
  induction entries with
  | nil => simp_all [alterList]
  | cons head rest ih =>
    obtain ⟨k, v⟩ := head
    simp only [alterList] at h
    split at h
    · rcases List.mem_cons.1 h with rfl | h
      · exact Or.inl rfl
      · exact Or.inr h
    · split at h
      next eq =>
        rcases List.mem_cons.1 h with rfl | h
        · exact Or.inl eq.symm
        · exact Or.inr (List.mem_cons_of_mem _ h)
      next =>
        rcases List.mem_cons.1 h with rfl | h
        · exact Or.inr (List.mem_cons_self ..)
        · exact (ih h).imp id (List.mem_cons_of_mem _)

theorem alterList_sorted (key : String) (f : Option α → α) {entries : List (String × α)}
    (h : entries.Pairwise fun a b => a.1 < b.1) :
    (alterList key f entries).Pairwise fun a b => a.1 < b.1 := by
  induction entries with
  | nil => simp [alterList]
  | cons head rest ih =>
    obtain ⟨k, v⟩ := head
    obtain ⟨first, others⟩ := List.pairwise_cons.1 h
    simp only [alterList]
    split
    next lt =>
      refine List.pairwise_cons.2 ⟨fun e mem => ?_, h⟩
      rcases List.mem_cons.1 mem with rfl | mem
      · exact lt
      · exact String.lt_trans lt (first e mem)
    next nlt =>
      split
      next => exact List.pairwise_cons.2 ⟨fun e mem => first e mem, others⟩
      next ne =>
        refine List.pairwise_cons.2 ⟨fun e mem => ?_, ih others⟩
        rcases mem_alterList mem with eq | mem
        · show k < e.1
          rw [eq]
          refine String.not_le.1 fun le => ne ?_
          exact String.le_antisymm le (String.not_lt.1 nlt)
        · exact first e mem

/-- The dictionary with `key` set to what `f` makes of its present value. -/
def alter (dict : Dict α) (key : String) (f : Option α → α) : Dict α :=
  ⟨alterList key f dict.entries, alterList_sorted key f dict.sorted⟩

def insert (dict : Dict α) (key : String) (value : α) : Dict α := dict.alter key fun _ => value

def get? (dict : Dict α) (key : String) : Option α := dict.entries.lookup key

def contains (dict : Dict α) (key : String) : Bool := (dict.get? key).isSome

def keys (dict : Dict α) : List String := dict.entries.map Prod.fst

def values (dict : Dict α) : List α := dict.entries.map Prod.snd

def size (dict : Dict α) : Nat := dict.entries.length

/-- The dictionary of the given entries; of two with one key the later counts. -/
def ofList (entries : List (String × α)) : Dict α :=
  entries.foldl (fun dict e => dict.insert e.1 e.2) {}

/-- The same keys with other values. -/
def map (f : α → β) (dict : Dict α) : Dict β :=
  ⟨dict.entries.map fun e => (e.1, f e.2), List.pairwise_map.2 dict.sorted⟩

theorem keys_sorted (dict : Dict α) : dict.keys.Pairwise (· < ·) :=
  List.pairwise_map.2 dict.sorted

/-- An order in which the entries of a dictionary are gone through. -/
structure Listing (α : Type) where
  list : Dict α → List (String × α)
  perm : ∀ dict, (list dict).Perm dict.entries

/-- In the order of the keys. -/
def Listing.sorted : Listing α := ⟨entries, fun _ => .refl _⟩

end Dict

end ShopLint
