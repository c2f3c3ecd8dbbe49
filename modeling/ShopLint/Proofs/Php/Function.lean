import ShopLint.Php.Function

/-!
Functions located by counting braces: from a line that declares a function one is always found, it
starts on that line, and it ends within the text.
-/

namespace ShopLint.Php

theorem takeBlock_isPrefix (balance : Int) (opened : Bool) (lines : List (List Char)) :
    takeBlock balance opened lines <+: lines := by
  induction lines generalizing balance opened with
  | nil => exact List.nil_prefix
  | cons line lines ih =>
    simp only [takeBlock]
    split
    · exact List.cons_prefix_cons.2 ⟨rfl, List.nil_prefix⟩
    · exact List.cons_prefix_cons.2 ⟨rfl, ih _ _⟩

theorem takeBlock_cons_ne_nil (balance : Int) (opened : Bool) (line : List Char)
    (lines : List (List Char)) : takeBlock balance opened (line :: lines) ≠ [] := by
  simp only [takeBlock]
  split <;> simp

/-- The block that starts on a line and takes in some of those after it. -/
def blockFrom (start : Nat) (lines : List (List Char)) : FunctionBlock :=
  let block := takeBlock 0 false lines
  { startLine := start, endLine := start + block.length - 1, lines := block }

theorem blockFrom_bounds (start : Nat) (line : List Char) (lines : List (List Char)) :
    start ≤ (blockFrom start (line :: lines)).endLine ∧
      (blockFrom start (line :: lines)).endLine ≤ start + lines.length := by
  have short := (takeBlock_isPrefix 0 false (line :: lines)).length_le
  have some := List.length_pos_iff.2 (takeBlock_cons_ne_nil 0 false line lines)
  simp only [List.length_cons] at short
  simp only [blockFrom]
  omega

theorem functionAt_of_declares {line : List Char} (declares : declaresFunction line)
    (before after : List (List Char)) :
    functionAt (before ++ line :: after) (before.length + 1 : Nat) =
      .ok (blockFrom (before.length + 1) (line :: after)) := by
  have inRange : ¬(((before.length + 1 : Nat) : Int) < 1 ||
      ((before ++ line :: after).length : Int) < ((before.length + 1 : Nat) : Int)) := by
    simp only [List.length_append, List.length_cons, Bool.or_eq_true, decide_eq_true_eq]
    omega
  have skip : ((before.length + 1 : Nat) : Int).toNat - 1 = before.length := by simp
  simp only [functionAt, if_neg inRange, skip, List.drop_left, List.takeWhile_cons, declares,
    Bool.not_true, Bool.false_eq_true, if_false, List.length_nil, List.drop_zero, Nat.add_zero]
  rfl

end ShopLint.Php
