import ShopLint.Module
import ShopLint.Proofs.Php.ClassName
import ShopLint.Proofs.Php.Settled
import ShopLint.Rule.Basic

/-!
One machine on two occasions. Its files are the same, and the orders in which it goes through imports
are not, so what may differ is what a file makes of an ambiguous name.
-/

namespace ShopLint

namespace Host

/-- The same machine, going through imports in other orders. -/
def reordered (host : Host) (order : LookUp → Dict.Listing String) : Host := { host with order := order }

/-- The parent of the class that a file declares is not ambiguous. -/
def SettledParent (host : Host) (path : String) : Prop :=
  ∀ decl, Php.classOf (host.readOrEmpty path).toList = some decl →
    ¬ClassName.Ambiguous (Php.importsOf (host.readOrEmpty path).toList) decl.parent

/-- No name that the head of the file looks up is ambiguous. -/
def SettledHead (host : Host) (path : String) : Prop :=
  Php.SettledHead (host.readOrEmpty path).toList

/-- No name that the constructor of the file looks up is ambiguous. -/
def SettledParams (host : Host) (path : String) : Prop :=
  Php.SettledParams (host.readOrEmpty path).toList

/-- No name that the file looks up is ambiguous. -/
def Settled (host : Host) (path : String) : Prop := Php.Settled (host.readOrEmpty path).toList

theorem SettledHead.parent {host : Host} {path : String} (h : host.SettledHead path) :
    host.SettledParent path := by
  intro decl found
  refine h decl.parent ?_
  rw [Php.headNames, found]
  exact List.mem_append_left _ (List.mem_singleton_self _)

section

variable (host : Host) (order : LookUp → Dict.Listing String) (path : String)

/-! The files are the same -/

@[simp] theorem isFileAt_reordered : (host.reordered order).isFileAt path = host.isFileAt path := rfl

@[simp] theorem existsAt_reordered : (host.reordered order).existsAt path = host.existsAt path := rfl

@[simp] theorem readOrEmpty_reordered :
    (host.reordered order).readOrEmpty path = host.readOrEmpty path :=
  rfl

@[simp] theorem loadAll_reordered (paths : List String) :
    loadAll (host.reordered order) paths = loadAll host paths :=
  rfl

@[simp] theorem nearestConfig_reordered :
    Module.nearestConfig (host.reordered order) path = Module.nearestConfig host path := by
  have same (depth : Nat) (dir : String) :
      Module.nearestConfigFrom (host.reordered order) depth dir =
        Module.nearestConfigFrom host depth dir := by
    induction depth generalizing dir with
    | zero => rfl
    | succ depth ih =>
      simp only [Module.nearestConfigFrom, isFileAt_reordered, existsAt_reordered, ih]
  exact same _ _

/-! What they declare -/

theorem declared?_eq :
    host.declared? path = (Php.classOf (host.readOrEmpty path).toList).map fun decl =>
      { className := Php.classNameOf (host.readOrEmpty path).toList
        parent :=
          if decl.parent = "" then ""
          else Php.parentNameOf (host.order (.parent path)) (host.readOrEmpty path).toList decl } :=
  declaredIn?_eq _ _

end

/-- The orders bear on parents only, and not on settled ones. -/
theorem declared?_reordered {host : Host} {path : String} (settled : host.SettledParent path)
    (order : LookUp → Dict.Listing String) :
    (host.reordered order).declared? path = host.declared? path := by
  rw [declared?_eq, declared?_eq, readOrEmpty_reordered]
  refine Option.map_congr fun decl found => ?_
  rw [Php.parentNameOf, Php.parentNameOf,
    ClassName.resolve_eq_of_not_ambiguous (settled decl found) _ (host.order (.parent path))]

end Host

end ShopLint
