import ShopLint.Json.Parser
import ShopLint.Json.Printer

/-!
Layouts of JSON text. The two printed forms differ only in the blanks that they put between the
signs, so they are one printer with two layouts.
-/

namespace ShopLint.Json

/-- What stands around the signs of a text: blanks only. -/
structure Layout where
  /-- Before an item, a member or a closing bracket at a level. -/
  gap : Nat → List Char
  /-- Between a colon and the value of the member. -/
  space : List Char
  gap_blank : ∀ level, ∀ c ∈ gap level, isJsonBlank c
  space_blank : ∀ c ∈ space, isJsonBlank c

namespace Layout

/-- No blanks at all. -/
def oneLine : Layout := ⟨fun _ => [], [], by simp, by simp⟩

/-- A line for each item and member. -/
def lines : Layout where
  gap := Value.lineBreak
  space := [' ']
  gap_blank level c mem := by
    rcases List.mem_cons.1 mem with rfl | space
    · rfl
    · rw [List.eq_of_mem_replicate space]
      rfl
  space_blank c mem := by rw [List.mem_singleton.1 mem]; rfl

@[simp] theorem oneLine_gap (level : Nat) : oneLine.gap level = [] := rfl

@[simp] theorem oneLine_space : oneLine.space = [] := rfl

@[simp] theorem lines_gap (level : Nat) : lines.gap level = Value.lineBreak level := rfl

@[simp] theorem lines_space : lines.space = [' '] := rfl

mutual

/-- The text of a value that stands at a level. -/
def write (layout : Layout) (level : Nat) : Value → List Char
  | .null => "null".toList
  | .bool b => (if b then "true" else "false").toList
  | .number literal => literal.toList
  | .string text => quote text
  | .array [] => ['[', ']']
  | .array (item :: items) =>
    '[' :: (layout.writeItems (level + 1) (item :: items) ++ layout.gap level ++ [']'])
  | .object [] => ['\x7b', '\x7d']
  | .object (member :: members) =>
    '\x7b' :: (layout.writeMembers (level + 1) (member :: members) ++ layout.gap level ++ ['\x7d'])

/-- The items, with commas between them. -/
def writeItems (layout : Layout) (level : Nat) : List Value → List Char
  | [] => []
  | item :: items =>
    layout.gap level ++ (layout.write level item ++
      if items.isEmpty then [] else ',' :: layout.writeItems level items)

def writeMembers (layout : Layout) (level : Nat) : List (String × Value) → List Char
  | [] => []
  | (key, value) :: members =>
    layout.gap level ++ (quote key ++ ':' :: (layout.space ++ (layout.write level value ++
      if members.isEmpty then [] else ',' :: layout.writeMembers level members)))

end

mutual

theorem write_oneLine (level : Nat) : (v : Value) → oneLine.write level v = v.compact
  | .null | .bool _ | .number _ | .string _ => rfl
  | .array [] | .object [] => rfl
  | .array (item :: items) => by
    rw [write, Value.compact, writeItems_oneLine]
    simp
  | .object (member :: members) => by
    rw [write, Value.compact, writeMembers_oneLine]
    simp

theorem writeItems_oneLine (level : Nat) :
    (items : List Value) → oneLine.writeItems level items = Value.compactItems items
  | [] => rfl
  | [item] => by simp [writeItems, Value.compactItems, write_oneLine]
  | item :: next :: items => by
    rw [writeItems, write_oneLine, writeItems_oneLine]
    simp [Value.compactItems]

theorem writeMembers_oneLine (level : Nat) :
    (members : List (String × Value)) → oneLine.writeMembers level members = Value.compactMembers members
  | [] => rfl
  | [(key, value)] => by simp [writeMembers, Value.compactMembers, write_oneLine]
  | (key, value) :: next :: members => by
    rw [writeMembers, write_oneLine, writeMembers_oneLine]
    simp [Value.compactMembers]

end

mutual

theorem write_lines (level : Nat) : (v : Value) → lines.write level v = v.indented level
  | .null | .bool _ | .number _ | .string _ => rfl
  | .array [] | .object [] => rfl
  | .array (item :: items) => by
    rw [write, Value.indented, writeItems_lines]
    simp
  | .object (member :: members) => by
    rw [write, Value.indented, writeMembers_lines]
    simp

theorem writeItems_lines (level : Nat) :
    (items : List Value) → lines.writeItems level items = Value.indentedItems level items
  | [] => rfl
  | [item] => by simp [writeItems, Value.indentedItems, write_lines]
  | item :: next :: items => by
    rw [writeItems, write_lines, writeItems_lines]
    simp [Value.indentedItems]

theorem writeMembers_lines (level : Nat) :
    (members : List (String × Value)) →
      lines.writeMembers level members = Value.indentedMembers level members
  | [] => rfl
  | [(key, value)] => by simp [writeMembers, Value.indentedMembers, write_lines]
  | (key, value) :: next :: members => by
    rw [writeMembers, write_lines, writeMembers_lines]
    simp [Value.indentedMembers]

end

end Layout

end ShopLint.Json
