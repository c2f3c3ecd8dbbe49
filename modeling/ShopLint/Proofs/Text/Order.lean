import Mathlib.Data.List.Lex
import Mathlib.Data.String.Basic

/-!
Texts in order. They compare as the bytes they are stored in do, and sorting a list by a text keeps
the items with the same one in their order.
-/

namespace ShopLint.Text

/-- The bytes that a text is stored in. -/
def bytes (text : String) : List UInt8 := text.toByteArray.data.toList

theorem bytes_eq (text : String) : bytes text = text.toList.flatMap String.utf8EncodeChar := by
  have encoded : text.toByteArray = text.toList.utf8Encode := by
    rw [← String.toByteArray_ofList, String.ofList_toList]
  rw [bytes, encoded, List.utf8Encode, List.data_toByteArray]

/-- Neither encoding starts with the other, so what follows them does not matter. -/
theorem utf8EncodeChar_append_lt {c d : Char} (h : c < d) (xs ys : List UInt8) :
    String.utf8EncodeChar c ++ xs < String.utf8EncodeChar d ++ ys := by
  have lt : c.val.toNat < d.val.toNat := h
  have bound : d.val.toNat < 0x110000 := by
    rcases d.valid with low | ⟨_, high⟩
    · omega
    · exact high
  simp only [String.utf8EncodeChar]
  split_ifs <;>
    simp only [List.cons_append, List.nil_append, List.cons_lt_cons_iff, UInt8.lt_iff_toNat_lt,
      UInt8.toNat_ofNat', ← UInt8.toNat_inj] <;>
    simp (disch := omega) only [Nat.mod_eq_of_lt] <;>
    omega

theorem flatMap_utf8EncodeChar_lt {cs ds : List Char} (h : cs < ds) :
    cs.flatMap String.utf8EncodeChar < ds.flatMap String.utf8EncodeChar := by
  induction h with
  | @nil d ds =>
    obtain ⟨byte, more, eq⟩ := List.exists_cons_of_ne_nil (@String.utf8EncodeChar_ne_nil d)
    rw [List.flatMap_cons, eq]
    exact List.nil_lt_cons _ _
  | cons _ ih => exact List.append_left_lt ih
  | rel lt => exact utf8EncodeChar_append_lt lt _ _

theorem bytes_lt_iff {a b : String} : bytes a < bytes b ↔ a < b := by
  have grows {a b : String} (h : a < b) : bytes a < bytes b := by
    rw [bytes_eq, bytes_eq]
    exact flatMap_utf8EncodeChar_lt h
  constructor
  · intro lt
    rcases lt_trichotomy a b with h | rfl | h
    · exact h
    · exact absurd lt (List.lt_irrefl _)
    · exact absurd lt (List.lt_asymm (grows h))
  · exact grows

theorem bytes_le_iff {a b : String} : bytes a ≤ bytes b ↔ a ≤ b := by
  rw [← List.not_lt, bytes_lt_iff, String.not_lt]

/-! Lists sorted by a text -/

section Sorting

variable {α : Type} (key : α → String)

/-- The list in the order of the items' keys; those with the same key stay in order. -/
def sortBy (items : List α) : List α := items.mergeSort fun a b => decide (key a ≤ key b)

theorem sortBy_perm (items : List α) : (sortBy key items).Perm items := List.mergeSort_perm _ _

theorem keyLe_trans (a b c : α) (ab : decide (key a ≤ key b)) (bc : decide (key b ≤ key c)) :
    decide (key a ≤ key c) :=
  decide_eq_true (String.le_trans (of_decide_eq_true ab) (of_decide_eq_true bc))

theorem keyLe_total (a b : α) : (decide (key a ≤ key b) || decide (key b ≤ key a)) = true := by
  simp only [Bool.or_eq_true, decide_eq_true_eq]
  exact String.le_total _ _

theorem sortBy_pairwise (items : List α) :
    (sortBy key items).Pairwise fun a b => key a ≤ key b :=
  (List.pairwise_mergeSort (keyLe_trans key) (keyLe_total key) items).imp of_decide_eq_true

/-- Items with the same key stay in order. -/
theorem filter_sortBy (items : List α) (k : String) :
    (sortBy key items).filter (key · = k) = items.filter (key · = k) := by
  have tied : (items.filter (key · = k)).Pairwise fun a b => decide (key a ≤ key b) := by
    refine List.pairwise_of_forall_mem_list fun a memA b memB => ?_
    have eqA := of_decide_eq_true (List.mem_filter.1 memA).2
    have eqB := of_decide_eq_true (List.mem_filter.1 memB).2
    rw [eqA, eqB]
    exact decide_eq_true (String.le_refl k)
  have kept : (items.filter (key · = k)).Sublist (sortBy key items) :=
    List.sublist_mergeSort (keyLe_trans key) (keyLe_total key) tied List.filter_sublist
  have alone := kept.filter (key · = k)
  simp only [List.filter_filter, Bool.and_self] at alone
  exact (alone.eq_of_length ((sortBy_perm key items).filter _).length_eq.symm).symm

variable {key}

theorem mem_iff_of_filter_eq {xs ys : List α}
    (same : ∀ k, xs.filter (key · = k) = ys.filter (key · = k)) (x : α) : x ∈ xs ↔ x ∈ ys := by
  have parts := congrArg (x ∈ ·) (same (key x))
  simpa using parts

/-- A list sorted by a key is given by its parts with one key. -/
theorem eq_of_filter_eq {xs ys : List α} (sortedX : xs.Pairwise fun a b => key a ≤ key b)
    (sortedY : ys.Pairwise fun a b => key a ≤ key b)
    (same : ∀ k, xs.filter (key · = k) = ys.filter (key · = k)) : xs = ys := by
  have mem := mem_iff_of_filter_eq same
  induction xs generalizing ys with
  | nil => exact (List.eq_nil_iff_forall_not_mem.2 fun y memY => by simpa using (mem y).2 memY).symm
  | cons x xs ih =>
    obtain _ | ⟨y, ys⟩ := ys
    · simpa using (mem x).1 List.mem_cons_self
    obtain ⟨firstX, restX⟩ := List.pairwise_cons.1 sortedX
    obtain ⟨firstY, restY⟩ := List.pairwise_cons.1 sortedY
    -- both heads have the least key, and are the first with it
    have le : key x ≤ key y := by
      rcases List.mem_cons.1 ((mem y).2 List.mem_cons_self) with rfl | memY
      · exact String.le_refl _
      · exact firstX y memY
    have ge : key y ≤ key x := by
      rcases List.mem_cons.1 ((mem x).1 List.mem_cons_self) with rfl | memX
      · exact String.le_refl _
      · exact firstY x memX
    have keys : key x = key y := String.le_antisymm le ge
    have heads := same (key x)
    simp only [List.filter_cons, keys, decide_true, if_true, List.cons.injEq] at heads
    obtain ⟨rfl, _⟩ := heads
    have tails (k : String) : xs.filter (key · = k) = ys.filter (key · = k) := by
      have parts := same k
      simp only [List.filter_cons] at parts
      split at parts
      · exact (List.cons.inj parts).2
      · exact parts
    exact congrArg (x :: ·) (ih restX restY tails (mem_iff_of_filter_eq tails))

end Sorting

end ShopLint.Text
