import ShopLint.Php.Constructor
import ShopLint.Proofs.Php.Resolution

/-!
Files that leave nothing to the order of their imports, since none of the names that are looked up
there is ambiguous. What is read of such a file is the same in all orders.
-/

namespace ShopLint

namespace Php

/-- The names that the head of a file looks up among its imports. -/
def headNames (source : List Char) : List String :=
  ((classOf source).map ClassDecl.parent).toList ++ interfaceNames source

/-- The names that the parameters of its constructor look up there. -/
def paramNames (source : List Char) : List String :=
  (((constructorOf (fun _ => .sorted) source).map Constructor.params).getD []).map fun p =>
    classMember p.type

def SettledHead (source : List Char) : Prop :=
  ∀ name ∈ headNames source, ¬ClassName.Ambiguous (importsOf source) name

def SettledParams (source : List Char) : Prop :=
  ∀ name ∈ paramNames source, ¬ClassName.Ambiguous (importsOf source) name

/-- No name that the file looks up is ambiguous. -/
structure Settled (source : List Char) : Prop where
  head : SettledHead source
  params : SettledParams source

/-- So are files that have no imports whose names differ in case only. -/
theorem settled_of_distinct {source : List Char}
    (distinct : ∀ key ∈ (importsOf source).keys, ∀ other ∈ (importsOf source).keys,
      Text.equalFold key other → key = other) : Settled source :=
  ⟨fun name _ => ClassName.not_ambiguous_of_distinct distinct name,
    fun name _ => ClassName.not_ambiguous_of_distinct distinct name⟩

theorem implementsOf_eq_of_settled {source : List Char} (settled : SettledHead source)
    (orders orders' : Nat → Dict.Listing String) :
    implementsOf orders source = implementsOf orders' source := by
  refine List.mapIdx_eq_mapIdx_iff.2 fun n bound => ?_
  have mem : (interfaceNames source)[n] ∈ headNames source :=
    List.mem_append_right _ (List.getElem_mem bound)
  exact ClassName.resolve_eq_of_not_ambiguous (settled _ mem) _ _ _

/-- The order only bears on the class that a parameter stands for. -/
theorem param?_reordered (order order' : Dict.Listing String) (imports : Dict String) (space : String)
    (line : Nat) (segment : List Char) :
    param? order imports space line segment = (param? order' imports space line segment).map fun p =>
      { p with className :=
          if classMember p.type = "" then ""
          else ClassName.resolve order imports space (classMember p.type) } := by
  simp only [param?, Option.bind_eq_bind]
  split
  · rfl
  · split
    all_goals
      rw [Option.map_bind]
      rfl

theorem paramsFrom_eq_of_settled {imports : Dict String} {space : String} {segments : List (List Char)}
    {line : Nat} (settled : ∀ p ∈ paramsFrom (fun _ => .sorted) imports space line segments,
      ¬ClassName.Ambiguous imports (classMember p.type)) (orders : Nat → Dict.Listing String) :
    paramsFrom orders imports space line segments =
      paramsFrom (fun _ => .sorted) imports space line segments := by
  induction segments generalizing orders line with
  | nil => rfl
  | cons segment segments ih =>
    simp only [paramsFrom, param?_reordered (orders 0) .sorted] at settled ⊢
    cases found : param? .sorted imports space (line + (segment.takeWhile isLead).count '\n') segment with
    | none =>
      rw [found] at settled
      exact ih settled _
    | some p =>
      rw [found] at settled
      obtain ⟨clear, later⟩ := List.forall_mem_cons.1 settled
      have same := param?_reordered .sorted .sorted imports space
        (line + (segment.takeWhile isLead).count '\n') segment
      rw [found, Option.map_some, Option.some.injEq] at same
      simp only [Option.map_some, ih later]
      rw [ClassName.resolve_eq_of_not_ambiguous clear (orders 0) .sorted, ← same]

theorem constructorOf_eq_of_settled {source : List Char} (settled : SettledParams source)
    (orders orders' : Nat → Dict.Listing String) :
    constructorOf orders source = constructorOf orders' source := by
  have sorted (orders : Nat → Dict.Listing String) :
      constructorOf orders source = constructorOf (fun _ => .sorted) source := by
    simp only [SettledParams, paramNames, constructorOf, Option.map_map, Function.comp_def,
      List.forall_mem_map] at settled ⊢
    cases found : Scan.find? (fun _ text => signature? text) source with
    | none => rfl
    | some p =>
      simp only [found, Option.map_some, Option.getD_some] at settled ⊢
      rw [paramsFrom_eq_of_settled settled]
  rw [sorted orders, sorted orders']

end Php

end ShopLint
