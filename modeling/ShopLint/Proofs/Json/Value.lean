import ShopLint.Json.Value
import ShopLint.Proofs.Dict

/-!
What JSON values are made of: how deep their arrays and objects stand inside each other, what their
numbers are, and which of them are plain data. Plain data is its own normal form: it has no numbers to
round, and its keys are in order already.
-/

namespace ShopLint.Json.Value

/-- The members of an object. -/
def members : Value → List (String × Value)
  | object members => members
  | _ => []

mutual

/-- How many arrays and objects stand inside each other. -/
def depth : Value → Nat
  | array items => depthItems items + 1
  | object members => depthMembers members + 1
  | _ => 0

def depthItems : List Value → Nat
  | [] => 0
  | item :: items => max (depth item) (depthItems items)

def depthMembers : List (String × Value) → Nat
  | [] => 0
  | (_, value) :: members => max (depth value) (depthMembers members)

end

theorem depthItems_cons_le (item : Value) (items : List Value) (room : Nat) :
    depthItems (item :: items) ≤ room ↔ item.depth ≤ room ∧ depthItems items ≤ room := by
  rw [depthItems, Nat.max_le]

theorem depthMembers_cons_le (member : String × Value) (members : List (String × Value)) (room : Nat) :
    depthMembers (member :: members) ≤ room ↔ member.2.depth ≤ room ∧ depthMembers members ≤ room := by
  rw [depthMembers, Nat.max_le]

theorem depthItems_le_iff {items : List Value} {room : Nat} :
    depthItems items ≤ room ↔ ∀ item ∈ items, item.depth ≤ room := by
  induction items with
  | nil => simp [depthItems]
  | cons item items ih => rw [depthItems_cons_le, ih, List.forall_mem_cons]

theorem depthMembers_le_iff {members : List (String × Value)} {room : Nat} :
    depthMembers members ≤ room ↔ ∀ member ∈ members, member.2.depth ≤ room := by
  induction members with
  | nil => simp [depthMembers]
  | cons member members ih => rw [depthMembers_cons_le, ih, List.forall_mem_cons]

theorem depth_array_le {items : List Value} {room : Nat} :
    (array items).depth ≤ room + 1 ↔ ∀ item ∈ items, item.depth ≤ room := by
  rw [depth, Nat.add_le_add_iff_right, depthItems_le_iff]

theorem depth_object_le {members : List (String × Value)} {room : Nat} :
    (object members).depth ≤ room + 1 ↔ ∀ member ∈ members, member.2.depth ≤ room := by
  rw [depth, Nat.add_le_add_iff_right, depthMembers_le_iff]

mutual

/-- `P` holds of each number in the value. -/
def Numbers (P : String → Prop) : Value → Prop
  | number literal => P literal
  | array items => NumbersItems P items
  | object members => NumbersMembers P members
  | _ => True

def NumbersItems (P : String → Prop) : List Value → Prop
  | [] => True
  | item :: items => Numbers P item ∧ NumbersItems P items

def NumbersMembers (P : String → Prop) : List (String × Value) → Prop
  | [] => True
  | (_, value) :: members => Numbers P value ∧ NumbersMembers P members

end

theorem numbersItems_iff {P : String → Prop} {items : List Value} :
    NumbersItems P items ↔ ∀ item ∈ items, item.Numbers P := by
  induction items with
  | nil => simp [NumbersItems]
  | cons item items ih => rw [NumbersItems, ih, List.forall_mem_cons]

theorem numbersMembers_iff {P : String → Prop} {members : List (String × Value)} :
    NumbersMembers P members ↔ ∀ member ∈ members, member.2.Numbers P := by
  induction members with
  | nil => simp [NumbersMembers]
  | cons member members ih => rw [NumbersMembers, ih, List.forall_mem_cons]

/-! Plain data -/

mutual

/-- Built from `null`, truth values, texts, lists, and objects that have each key once, in order. -/
def Plain : Value → Prop
  | null | bool _ | string _ => True
  | number _ => False
  | array items => PlainItems items
  | object members => (members.Pairwise fun a b => a.1 < b.1) ∧ PlainMembers members

def PlainItems : List Value → Prop
  | [] => True
  | item :: items => Plain item ∧ PlainItems items

def PlainMembers : List (String × Value) → Prop
  | [] => True
  | (_, value) :: members => Plain value ∧ PlainMembers members

end

mutual

theorem Plain.numbers (P : String → Prop) : (v : Value) → v.Plain → v.Numbers P
  | null, _ | bool _, _ | string _, _ => trivial
  | array items, plain => PlainItems.numbers P items plain
  | object members, plain => PlainMembers.numbers P members plain.2

theorem PlainItems.numbers (P : String → Prop) : (items : List Value) → PlainItems items →
    NumbersItems P items
  | [], _ => trivial
  | item :: items, plain => ⟨Plain.numbers P item plain.1, PlainItems.numbers P items plain.2⟩

theorem PlainMembers.numbers (P : String → Prop) : (members : List (String × Value)) →
    PlainMembers members → NumbersMembers P members
  | [], _ => trivial
  | (_, value) :: members, plain =>
    ⟨Plain.numbers P value plain.1, PlainMembers.numbers P members plain.2⟩

end

mutual

theorem normal?_plain : (v : Value) → v.Plain → v.normal? = some v
  | null, _ | bool _, _ | string _, _ => rfl
  | array items, plain => by rw [normal?, normalItems?_plain items plain, Option.map_some]
  | object members, plain => by
    rw [normal?, normalMembers?_plain members plain.2, Option.map_some, Dict.entries_ofList plain.1]

theorem normalItems?_plain : (items : List Value) → PlainItems items → normalItems? items = some items
  | [], _ => rfl
  | item :: items, plain => by
    rw [normalItems?, normal?_plain item plain.1, normalItems?_plain items plain.2]
    rfl

theorem normalMembers?_plain : (members : List (String × Value)) → PlainMembers members →
    normalMembers? members = some members
  | [], _ => rfl
  | (_, value) :: members, plain => by
    rw [normalMembers?, normal?_plain value plain.1, normalMembers?_plain members plain.2]
    rfl

end

end ShopLint.Json.Value
