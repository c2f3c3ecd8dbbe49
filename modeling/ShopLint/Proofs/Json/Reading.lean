import ShopLint.Proofs.Json.Layout
import ShopLint.Proofs.Json.Numeral
import ShopLint.Proofs.Json.Quoted
import ShopLint.Proofs.Json.Value
import Mathlib.Data.List.DropRight

/-!
JSON text read back. What either printer writes is read as the value it was written from, unless the
value has more arrays and objects inside each other than a reader opens; then it is refused.
-/

namespace ShopLint.Json

/-- The literal is the numeral of a whole number. -/
def IsWhole (literal : String) : Prop := ∃ n : Int, literal = toString n

/-! Blanks -/

theorem skipBlanks_cons {c : Char} (h : isJsonBlank c = false) (cs : List Char) :
    skipBlanks (c :: cs) = c :: cs :=
  List.dropWhile_cons_of_neg (by simp [h])

theorem skipBlanks_append {blanks : List Char} (h : ∀ c ∈ blanks, isJsonBlank c) (text : List Char) :
    skipBlanks (blanks ++ text) = skipBlanks text :=
  List.dropWhile_append_of_pos h

theorem skipBlanks_skipBlanks (text : List Char) : skipBlanks (skipBlanks text) = skipBlanks text :=
  List.dropWhile_idempotent _ _

theorem parseValue_skipBlanks (fuel room : Nat) (text : List Char) :
    parseValue fuel room (skipBlanks text) = parseValue fuel room text := by
  cases fuel with
  | zero => rw [parseValue, parseValue]
  | succ fuel => rw [parseValue, parseValue, skipBlanks_skipBlanks]

theorem parseItems_skipBlanks (fuel room : Nat) (text : List Char) :
    parseItems fuel room (skipBlanks text) = parseItems fuel room text := by
  cases fuel with
  | zero => rw [parseItems, parseItems]
  | succ fuel => rw [parseItems, parseItems, parseValue_skipBlanks]

theorem parseMembers_skipBlanks (fuel room : Nat) (text : List Char) :
    parseMembers fuel room (skipBlanks text) = parseMembers fuel room text := by
  cases fuel with
  | zero => rw [parseMembers, parseMembers]
  | succ fuel => rw [parseMembers, parseMembers, skipBlanks_skipBlanks]

theorem parseValue_append {blanks : List Char} (h : ∀ c ∈ blanks, isJsonBlank c) (fuel room : Nat)
    (text : List Char) : parseValue fuel room (blanks ++ text) = parseValue fuel room text := by
  rw [← parseValue_skipBlanks, skipBlanks_append h, parseValue_skipBlanks]

theorem parseMembers_append {blanks : List Char} (h : ∀ c ∈ blanks, isJsonBlank c) (fuel room : Nat)
    (text : List Char) : parseMembers fuel room (blanks ++ text) = parseMembers fuel room text := by
  rw [← parseMembers_skipBlanks, skipBlanks_append h, parseMembers_skipBlanks]

/-! One step of the reader for each sign that a value starts with -/

theorem parseValue_quote (fuel room : Nat) (cs : List Char) :
    parseValue (fuel + 1) room ('"' :: cs) =
      (unquote? cs).map fun p => (.string (String.ofList p.1), p.2) := by
  rw [parseValue, skipBlanks_cons rfl]
  rfl

theorem parseValue_null (fuel room : Nat) (rest : List Char) :
    parseValue (fuel + 1) room ("null".toList ++ rest) = some (.null, rest) := by
  rw [parseValue]
  rfl

theorem parseValue_bool (fuel room : Nat) (b : Bool) (rest : List Char) :
    parseValue (fuel + 1) room ((if b then "true" else "false").toList ++ rest) =
      some (.bool b, rest) := by
  rw [parseValue]
  cases b <;> rfl

/-- A numeral starts with a sign or a digit. -/
theorem toList_toString_int (n : Int) :
    ∃ c cs, (toString n).toList = c :: cs ∧ (c = '-' ∨ Decimal.isDigitChar c) := by
  cases n with
  | ofNat m =>
    obtain ⟨c, cs, eq, digit, -⟩ := Decimal.head_toString m
    exact ⟨c, cs, eq, .inr digit⟩
  | negSucc m => exact ⟨'-', _, Decimal.toList_toString_neg m, .inl rfl⟩

/-- A character that starts a number starts nothing else. -/
theorem startsNumber {c : Char} (h : c = '-' ∨ Decimal.isDigitChar c) :
    isJsonBlank c = false ∧ c ≠ ']' ∧ c ≠ '"' ∧ c ≠ '[' ∧ c ≠ '\x7b' ∧ c ≠ 'n' ∧ c ≠ 't' ∧ c ≠ 'f' := by
  rcases h with rfl | digit
  · decide
  · refine ⟨?_, ?_, ?_, ?_, ?_, ?_, ?_, ?_⟩
    · rw [isJsonBlank]
      simp only [Bool.or_eq_false_iff, decide_eq_false_iff_not]
      refine ⟨⟨⟨?_, ?_⟩, ?_⟩, ?_⟩ <;> (rintro rfl; exact absurd digit (by decide))
    all_goals rintro rfl; exact absurd digit (by decide)

theorem parseValue_number (fuel room : Nat) (n : Int) {rest : List Char} (h : EndsNumber rest) :
    parseValue (fuel + 1) room ((toString n).toList ++ rest) = some (.number (toString n), rest) := by
  obtain ⟨c, cs, eq, first⟩ := toList_toString_int n
  obtain ⟨blank, -, quote, bracket, brace, null, yes, no⟩ := startsNumber first
  have read := number?_toString n h
  rw [eq, List.cons_append] at read ⊢
  rw [parseValue, skipBlanks_cons blank]
  simp only [if_neg quote, if_neg bracket, if_neg brace, if_neg null, if_neg yes, if_neg no, read,
    Option.map_some, ← eq, String.ofList_toList]

theorem parseValue_bracket_nil (fuel room : Nat) (rest : List Char) :
    parseValue (fuel + 1) (room + 1) ('[' :: ']' :: rest) = some (.array [], rest) := by
  rw [parseValue]
  rfl

theorem parseValue_brace_nil (fuel room : Nat) (rest : List Char) :
    parseValue (fuel + 1) (room + 1) ('\x7b' :: '\x7d' :: rest) = some (.object [], rest) := by
  rw [parseValue]
  rfl

theorem parseValue_bracket_full (fuel : Nat) (cs : List Char) :
    parseValue (fuel + 1) 0 ('[' :: cs) = none := by
  rw [parseValue]
  rfl

theorem parseValue_brace_full (fuel : Nat) (cs : List Char) :
    parseValue (fuel + 1) 0 ('\x7b' :: cs) = none := by
  rw [parseValue]
  rfl

theorem parseValue_bracket (fuel room : Nat) {cs : List Char} (h : ∀ rest, skipBlanks cs ≠ ']' :: rest) :
    parseValue (fuel + 1) (room + 1) ('[' :: cs) =
      (parseItems fuel room cs).map fun p => (.array p.1, p.2) := by
  rw [parseValue, skipBlanks_cons rfl, ← parseItems_skipBlanks]
  -- `h` rules out the empty array
  simp only [Char.reduceEq, if_false, if_true, Nat.add_one_ne_zero, Nat.add_sub_cancel]

theorem parseValue_brace (fuel room : Nat) {cs : List Char} (h : ∀ rest, skipBlanks cs ≠ '\x7d' :: rest) :
    parseValue (fuel + 1) (room + 1) ('\x7b' :: cs) =
      (parseMembers fuel room cs).map fun p => (.object p.1, p.2) := by
  rw [parseValue, skipBlanks_cons rfl, ← parseMembers_skipBlanks]
  -- `h` rules out the empty object
  simp only [Char.reduceEq, if_false, if_true, Nat.add_one_ne_zero, Nat.add_sub_cancel]

theorem quote_append (text : String) (rest : List Char) :
    quote text ++ rest = '"' :: (text.toList.flatMap escapeChar ++ '"' :: rest) := by
  simp [quote]

/-- An item, and then others or the end. -/
theorem parseItems_succ (fuel room : Nat) (text : List Char) :
    parseItems (fuel + 1) room text =
      (parseValue fuel room text).bind fun p =>
        match skipBlanks p.2 with
        | ',' :: rest => (parseItems fuel room rest).map fun q => (p.1 :: q.1, q.2)
        | ']' :: rest => some ([p.1], rest)
        | _ => none := by
  rw [parseItems]
  cases parseValue fuel room text <;> rfl

/-- A member, and then others or the end. -/
theorem parseMembers_key (fuel room : Nat) (key : String) (text : List Char) :
    parseMembers (fuel + 1) room (quote key ++ ':' :: text) =
      (parseValue fuel room text).bind fun p =>
        match skipBlanks p.2 with
        | ',' :: rest => (parseMembers fuel room rest).map fun q => ((key, p.1) :: q.1, q.2)
        | '\x7d' :: rest => some ([(key, p.1)], rest)
        | _ => none := by
  rw [quote_append, parseMembers, skipBlanks_cons rfl]
  simp only [unquote?_escaped, skipBlanks_cons (c := ':') rfl, String.ofList_toList]
  cases parseValue fuel room text <;> rfl

/-! What a layout writes -/

namespace Layout

/-- No value starts with a blank or a closing bracket. -/
theorem write_starts (layout : Layout) (level : Nat) {v : Value} (whole : v.Numbers IsWhole) :
    ∃ c cs, layout.write level v = c :: cs ∧ isJsonBlank c = false ∧ c ≠ ']' := by
  cases v with
  | null => exact ⟨'n', _, rfl, by decide⟩
  | bool b => cases b <;> exact ⟨_, _, rfl, by decide⟩
  | number literal =>
    obtain ⟨n, rfl⟩ := whole
    obtain ⟨c, cs, eq, first⟩ := toList_toString_int n
    exact ⟨c, cs, eq, (startsNumber first).1, (startsNumber first).2.1⟩
  | string text => exact ⟨'"', _, rfl, by decide⟩
  | array items => cases items <;> exact ⟨'[', _, by rw [write], by decide⟩
  | object members => cases members <;> exact ⟨'\x7b', _, by rw [write], by decide⟩

theorem writeItems_starts (layout : Layout) (level : Nat) {item : Value} (items : List Value)
    (whole : item.Numbers IsWhole) (rest tail : List Char) :
    skipBlanks (layout.writeItems level (item :: items) ++ rest) ≠ ']' :: tail := by
  obtain ⟨c, cs, eq, blank, ne⟩ := layout.write_starts level whole
  rw [writeItems, List.append_assoc, skipBlanks_append (layout.gap_blank level), eq, List.cons_append,
    List.cons_append, skipBlanks_cons blank]
  exact fun same => ne (List.cons.inj same).1

theorem writeMembers_starts (layout : Layout) (level : Nat) (member : String × Value)
    (members : List (String × Value)) (rest tail : List Char) :
    skipBlanks (layout.writeMembers level (member :: members) ++ rest) ≠ '\x7d' :: tail := by
  rw [writeMembers, List.append_assoc, skipBlanks_append (layout.gap_blank level), List.append_assoc,
    quote_append, skipBlanks_cons rfl]
  simp

/-- What follows a value inside an array or object ends a number. -/
theorem endsNumber_after (layout : Layout) (level : Nat) {more : Bool} {tail : List Char} {close : Char}
    (h : continuesNumber close = false) (rest : List Char) :
    EndsNumber ((if more then [] else ',' :: tail) ++ (layout.gap level ++ close :: rest)) := by
  split
  · rw [List.nil_append]
    exact .append (layout.gap_blank level) (.cons h rest)
  · exact .cons rfl _

/-! By induction on the value: a level of brackets takes two steps of fuel and at least two signs of
text, so twice the length is always enough. -/

mutual

/-- A reader with enough fuel reads what was written, as long as it has room for the value. -/
theorem parseValue_write (layout : Layout) (level fuel room : Nat) : (v : Value) → v.Numbers IsWhole →
    (rest : List Char) → EndsNumber rest → 2 * (layout.write level v).length ≤ fuel →
    parseValue (fuel + 1) room (layout.write level v ++ rest) =
      if v.depth ≤ room then some (v, rest) else none
  | .null, _, rest, _, _ => parseValue_null fuel room rest
  | .bool b, _, rest, _, _ => parseValue_bool fuel room b rest
  | .number literal, whole, rest, ends, _ => by
    obtain ⟨n, rfl⟩ := whole
    exact parseValue_number fuel room n ends
  | .string text, _, rest, _, _ => by
    rw [write, quote_append, parseValue_quote, unquote?_escaped]
    simp [Value.depth]
  | .array [], _, rest, _, _ => by
    cases room with
    | zero => exact parseValue_bracket_full fuel (']' :: rest)
    | succ room => exact parseValue_bracket_nil fuel room rest
  | .object [], _, rest, _, _ => by
    cases room with
    | zero => exact parseValue_brace_full fuel ('\x7d' :: rest)
    | succ room => exact parseValue_brace_nil fuel room rest
  | .array (item :: items), whole, rest, _, enough => by
    rw [write, List.length_cons, List.append_assoc, List.length_append] at enough
    rw [write, List.cons_append, List.append_assoc, List.append_assoc]
    cases room with
    | zero => rw [parseValue_bracket_full, if_neg (by simp [Value.depth])]
    | succ room =>
      obtain ⟨fuel, rfl⟩ : ∃ f, fuel = f + 1 := ⟨fuel - 1, by omega⟩
      rw [parseValue_bracket _ _ fun tail => layout.writeItems_starts _ items whole.1 _ tail,
        List.singleton_append, parseItems_write layout _ _ _ _ _ whole rest (by omega)]
      simp only [Value.depth, Nat.add_le_add_iff_right]
      split <;> rfl
  | .object (member :: members), whole, rest, _, enough => by
    rw [write, List.length_cons, List.append_assoc, List.length_append] at enough
    rw [write, List.cons_append, List.append_assoc, List.append_assoc]
    cases room with
    | zero => rw [parseValue_brace_full, if_neg (by simp [Value.depth])]
    | succ room =>
      obtain ⟨fuel, rfl⟩ : ∃ f, fuel = f + 1 := ⟨fuel - 1, by omega⟩
      rw [parseValue_brace _ _ fun tail => layout.writeMembers_starts _ member members _ tail,
        List.singleton_append, parseMembers_write layout _ _ _ _ _ whole rest (by omega)]
      simp only [Value.depth, Nat.add_le_add_iff_right]
      split <;> rfl

theorem parseItems_write (layout : Layout) (level fuel room : Nat) : (item : Value) → (items : List Value) →
    Value.NumbersItems IsWhole (item :: items) → (rest : List Char) →
    2 * (layout.writeItems (level + 1) (item :: items)).length + 1 ≤ fuel →
    parseItems (fuel + 1) room
        (layout.writeItems (level + 1) (item :: items) ++ (layout.gap level ++ ']' :: rest)) =
      if Value.depthItems (item :: items) ≤ room then some (item :: items, rest) else none
  | item, items, whole, rest, enough => by
    rw [writeItems, List.length_append, List.length_append] at enough
    obtain ⟨fuel, rfl⟩ : ∃ f, fuel = f + 1 := ⟨fuel - 1, by omega⟩
    rw [writeItems, List.append_assoc, List.append_assoc, parseItems_succ,
      parseValue_append (layout.gap_blank _),
      parseValue_write layout _ _ _ item whole.1 _ (layout.endsNumber_after level rfl rest) (by omega)]
    by_cases fits : item.depth ≤ room
    · rw [if_pos fits, Option.bind_some]
      cases items with
      | nil =>
        simp only [List.isEmpty_nil, if_true, List.nil_append, skipBlanks_append (layout.gap_blank level),
          skipBlanks_cons (c := ']') rfl]
        simp [Value.depthItems, fits]
      | cons next items =>
        simp only [List.isEmpty_cons, Bool.false_eq_true, if_false, List.length_cons] at enough
        simp only [List.isEmpty_cons, Bool.false_eq_true, if_false, List.cons_append,
          skipBlanks_cons (c := ',') rfl]
        rw [parseItems_write layout level fuel room next items whole.2 rest (by omega)]
        simp only [Value.depthItems_cons_le item, fits, true_and]
        split <;> rfl
    · rw [if_neg fits, Option.bind_none, if_neg]
      exact fun all => fits ((Value.depthItems_cons_le _ _ _).1 all).1

theorem parseMembers_write (layout : Layout) (level fuel room : Nat) : (member : String × Value) →
    (members : List (String × Value)) → Value.NumbersMembers IsWhole (member :: members) →
    (rest : List Char) →
    2 * (layout.writeMembers (level + 1) (member :: members)).length + 1 ≤ fuel →
    parseMembers (fuel + 1) room
        (layout.writeMembers (level + 1) (member :: members) ++ (layout.gap level ++ '\x7d' :: rest)) =
      if Value.depthMembers (member :: members) ≤ room then some (member :: members, rest) else none
  | (key, value), members, whole, rest, enough => by
    rw [writeMembers, List.length_append, List.length_append, List.length_cons, List.length_append,
      List.length_append] at enough
    obtain ⟨fuel, rfl⟩ : ∃ f, fuel = f + 1 := ⟨fuel - 1, by omega⟩
    rw [writeMembers, List.append_assoc, List.append_assoc, List.cons_append, List.append_assoc,
      List.append_assoc, parseMembers_append (layout.gap_blank _), parseMembers_key,
      parseValue_append layout.space_blank,
      parseValue_write layout _ _ _ value whole.1 _ (layout.endsNumber_after level rfl rest) (by omega)]
    by_cases fits : value.depth ≤ room
    · rw [if_pos fits, Option.bind_some]
      cases members with
      | nil =>
        simp only [List.isEmpty_nil, if_true, List.nil_append, skipBlanks_append (layout.gap_blank level),
          skipBlanks_cons (c := '\x7d') rfl]
        simp [Value.depthMembers, fits]
      | cons next members =>
        simp only [List.isEmpty_cons, Bool.false_eq_true, if_false, List.length_cons] at enough
        simp only [List.isEmpty_cons, Bool.false_eq_true, if_false, List.cons_append,
          skipBlanks_cons (c := ',') rfl]
        rw [parseMembers_write layout level fuel room next members whole.2 rest (by omega)]
        simp only [Value.depthMembers_cons_le (key, value), fits, true_and]
        split <;> rfl
    · rw [if_neg fits, Option.bind_none, if_neg]
      exact fun all => fits ((Value.depthMembers_cons_le _ _ _).1 all).1

end

theorem parse?_write (layout : Layout) {v : Value} (whole : v.Numbers IsWhole) {blanks : List Char}
    (blank : ∀ c ∈ blanks, isJsonBlank c) :
    parse? (layout.write 0 v ++ blanks) = if v.depth ≤ nestingLimit then some v else none := by
  have ends : EndsNumber blanks := List.append_nil blanks ▸ EndsNumber.nil.append blank
  have nothing_left : (skipBlanks blanks).isEmpty := by
    rw [← List.append_nil blanks, skipBlanks_append blank]
    rfl
  rw [parse?, layout.parseValue_write 0 _ _ v whole blanks ends (by rw [List.length_append]; omega)]
  by_cases fits : v.depth ≤ nestingLimit
  · simp only [if_pos fits, if_pos nothing_left]
  · simp only [if_neg fits]

end Layout

/-! Whole texts -/

/-- The text on one line is read back. -/
theorem parse?_toText {v : Value} (whole : v.Numbers IsWhole) :
    parse? v.toText.toList = if v.depth ≤ nestingLimit then some v else none := by
  rw [Value.toText, String.toList_ofList, ← Layout.write_oneLine 0 v, ← List.append_nil (Layout.write _ _ _)]
  exact Layout.oneLine.parse?_write whole (by simp)

/-- The indented text is read back, also with blanks after it. -/
theorem parse?_toLines {v : Value} (whole : v.Numbers IsWhole) {blanks : String}
    (blank : ∀ c ∈ blanks.toList, isJsonBlank c) :
    parse? (v.toLines ++ blanks).toList = if v.depth ≤ nestingLimit then some v else none := by
  rw [String.toList_append, Value.toLines, String.toList_ofList, ← Layout.write_lines 0 v]
  exact Layout.lines.parse?_write whole blank

end ShopLint.Json
