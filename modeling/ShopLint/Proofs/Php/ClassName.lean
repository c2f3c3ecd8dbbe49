import ShopLint.ClassIndex
import ShopLint.Proofs.Dict
import ShopLint.Proofs.Path
import ShopLint.Proofs.Php.Position
import ShopLint.Proofs.Text.Scan

/-!
The spelling of class names. Readers of names take no blanks, and resolving a reference drops its
leading backslash, so what a file declares are full names in their one spelling (`IsFull`), which
looking up a class leaves as they are.
-/

namespace ShopLint

theorem toNat_of_isQualified {c : Char} (h : isQualified c) : 48 ≤ c.toNat ∧ c.toNat ≤ 122 := by
  simp only [isQualified, isWord, isNameStart, Bool.or_eq_true, Bool.and_eq_true, decide_eq_true_eq,
    Char.le_def, UInt32.le_iff_toNat_le] at h
  rcases h with (((⟨low, high⟩ | ⟨low, high⟩) | rfl) | ⟨low, high⟩) | rfl
  · exact ⟨Nat.le_trans (by decide) low, high⟩
  · exact ⟨Nat.le_trans (by decide) low, Nat.le_trans high (by decide)⟩
  · decide
  · exact ⟨low, Nat.le_trans high (by decide)⟩
  · decide

theorem toNat_of_isBlank {c : Char} (h : isBlank c) : c.toNat < 48 ∨ 122 < c.toNat := by
  simp only [isBlank, Bool.or_eq_true, Bool.and_eq_true, decide_eq_true_eq, Char.le_def,
    UInt32.le_iff_toNat_le, or_assoc] at h
  rcases h with ⟨_, high⟩ | rfl | rfl | rfl | rfl | ⟨low, _⟩ | rfl | rfl | rfl | rfl | rfl
  · exact .inl (Nat.lt_of_le_of_lt high (by decide))
  · decide
  · decide
  · decide
  · decide
  · exact .inr (Nat.lt_of_lt_of_le (by decide) low)
  all_goals decide

theorem isBlank_eq_false_of_isQualified {c : Char} (h : isQualified c) : isBlank c = false := by
  rw [Bool.eq_false_iff]
  intro blank
  have inside := toNat_of_isQualified h
  have outside := toNat_of_isBlank blank
  omega

namespace ClassName

/-- How a full name is spelled: it starts as an identifier does and goes on with the characters of
class names. So it has neither blanks nor a leading backslash. -/
def IsFull (name : String) : Prop :=
  ∃ c cs, name.toList = c :: cs ∧ isNameStart c ∧ ∀ d ∈ cs, isQualified d

theorem IsFull.isQualified {name : String} (h : IsFull name) : ∀ d ∈ name.toList, isQualified d := by
  obtain ⟨c, cs, eq, start, others⟩ := h
  rw [eq]
  exact List.forall_mem_cons.2 ⟨isQualified_of_isWord (isWord_of_isNameStart start), others⟩

theorem IsFull.ne_empty {name : String} (h : IsFull name) : name ≠ "" := by
  obtain ⟨c, cs, eq, _⟩ := h
  rintro rfl
  simp at eq

theorem trim_of_isQualified {name : String} (h : ∀ d ∈ name.toList, isQualified d) :
    Text.trim name = name := by
  have blankless : ∀ d ∈ name.toList, isBlank d = false :=
    fun d mem => isBlank_eq_false_of_isQualified (h d mem)
  have front : name.toList.dropWhile isBlank = name.toList := by
    cases spelled : name.toList with
    | nil => rfl
    | cons c cs =>
      have first := blankless c (by rw [spelled]; exact List.mem_cons_self)
      exact List.dropWhile_cons_of_neg (by simp [first])
  rw [Text.trim, Chars.trimWhile, front, Chars.dropRightWhile_of_forall blankless, String.ofList_toList]

theorem IsFull.dropStart {name : String} (h : IsFull name) : Text.dropStart "\\" name = name := by
  obtain ⟨c, cs, eq, start, _⟩ := h
  have absent : Chars.after? "\\".toList name.toList = none := by
    rw [Option.eq_none_iff_forall_ne_some]
    intro rest found
    rw [Chars.after?_eq_some, eq] at found
    have first : c = '\\' := (List.cons.inj found).1
    subst first
    exact absurd start (by decide)
  rw [Text.dropStart, absent]

/-- Looking up a full name changes nothing about it. -/
theorem IsFull.bare_eq {name : String} (h : IsFull name) : bare name = name := by
  rw [bare, trim_of_isQualified h.isQualified, h.dropStart]

theorem IsFull.qualify {space name : String} (inSpace : space = "" ∨ IsFull space) (h : IsFull name) :
    IsFull (ClassName.qualify space name) := by
  rw [ClassName.qualify]
  split
  · exact h
  next named =>
    obtain ⟨c, cs, eq, start, others⟩ := inSpace.resolve_left named
    refine ⟨c, cs ++ '\\' :: name.toList, by simp [eq], start, fun d mem => ?_⟩
    rcases List.mem_append.1 mem with inFront | inBack
    · exact others d inFront
    · rcases List.mem_cons.1 inBack with rfl | inName
      · decide
      · exact h.isQualified d inName

/-- A reference to a class: a full name, with or without a leading backslash. -/
def IsReference (name : String) : Prop :=
  IsFull name ∨ ∃ full, IsFull full ∧ name = "\\" ++ full

theorem IsReference.isQualified {name : String} (h : IsReference name) :
    ∀ d ∈ name.toList, isQualified d := by
  rcases h with full | ⟨full, isFull, rfl⟩
  · exact full.isQualified
  · simp only [String.toList_append, List.mem_append]
    rintro d (lead | inName)
    · rw [List.mem_singleton.1 lead]
      decide
    · exact isFull.isQualified d inName

theorem IsReference.dropStart {name : String} (h : IsReference name) :
    IsFull (Text.dropStart "\\" name) := by
  rcases h with full | ⟨full, isFull, rfl⟩
  · rw [full.dropStart]
    exact full
  · have found : Chars.after? "\\".toList ("\\" ++ full).toList = some full.toList := by
      rw [Chars.after?_eq_some, String.toList_append]
    simp only [Text.dropStart, found, String.ofList_toList]
    exact isFull

theorem IsReference.ne_empty {name : String} (h : IsReference name) : name ≠ "" := by
  rcases h with full | ⟨full, _, rfl⟩
  · exact full.ne_empty
  · intro eq
    have none := congrArg String.toList eq
    simp at none

/-- A reference without a backslash is a full name as it stands. -/
theorem IsReference.isFull_of_short {name : String} (h : IsReference name)
    (short : ¬Text.contains name "\\") : IsFull name := by
  rcases h with full | ⟨full, _, rfl⟩
  · exact full
  · refine absurd ?_ short
    simp [Text.contains, Chars.contains, Chars.cut]

/-- What a reference means is a full name, when the imports and the namespace are. -/
theorem isFull_resolve {imports : Dict String} {space name : String}
    (imported : ∀ e ∈ imports.entries, IsFull e.2) (inSpace : space = "" ∨ IsFull space)
    (h : IsReference name) (order : Dict.Listing String) :
    IsFull (resolve order imports space name) := by
  simp only [resolve, resolveAmong, trim_of_isQualified h.isQualified, if_neg h.ne_empty]
  split
  · exact h.dropStart
  next short =>
    split
    next full found =>
      obtain ⟨before, after, listed, _⟩ := List.lookup_eq_some_iff.1 found
      have mem : (name, full) ∈ order.list imports :=
        listed ▸ List.mem_append_right before List.mem_cons_self
      exact imported (name, full) ((order.perm imports).subset mem)
    next =>
      split
      next short' full found =>
        exact imported (short', full) ((order.perm imports).subset (List.mem_of_find?_eq_some found))
      next => exact IsFull.qualify inSpace (h.isFull_of_short short)

end ClassName

namespace Php

open ClassName

theorem isFull_of_takeWhile {p : Char → Bool} (named : ∀ c, p c → isQualified c) {c : Char}
    (start : isNameStart c) (cs : List Char) : IsFull (String.ofList (c :: cs.takeWhile p)) :=
  ⟨c, cs.takeWhile p, String.toList_ofList, start, fun d mem => named d (List.mem_takeWhile_imp mem)⟩

theorem isFull_of_identifier? {text name rest : List Char} (h : identifier? text = some (name, rest)) :
    IsFull (String.ofList name) := by
  cases text with
  | nil => simp [identifier?] at h
  | cons c cs =>
    simp only [identifier?] at h
    split at h
    next start =>
      cases h
      exact isFull_of_takeWhile (fun _ => isQualified_of_isWord) start cs
    next => cases h

theorem isFull_of_qualified? {text name rest : List Char} (h : qualified? text = some (name, rest)) :
    IsFull (String.ofList name) := by
  cases text with
  | nil => simp [qualified?] at h
  | cons c cs =>
    simp only [qualified?] at h
    split at h
    next start =>
      cases h
      exact isFull_of_takeWhile (fun _ => id) start cs
    next => cases h

theorem isReference_of_rooted? {text name rest : List Char} (h : rooted? text = some (name, rest)) :
    IsReference (String.ofList name) := by
  simp only [rooted?] at h
  split at h
  next cs =>
    obtain ⟨⟨full, after⟩, found, eq⟩ := Option.map_eq_some_iff.1 h
    simp only [Prod.mk.injEq] at eq
    refine .inr ⟨String.ofList full, isFull_of_qualified? found, ?_⟩
    rw [← eq.1]
    exact String.toList_inj.1 (by simp)
  next => exact .inl (isFull_of_qualified? h)

theorem read_of_atLineStart {α : Type} {read : List Char → Option α} {prev : Option Char}
    {text : List Char} {a : α} (h : atLineStart read prev text = some a) :
    read (skipSpaces text) = some a := by
  simp only [atLineStart] at h
  split at h
  · exact h
  · simp at h

theorem isFull_namespaceOf (source : List Char) :
    namespaceOf source = "" ∨ IsFull (namespaceOf source) := by
  simp only [namespaceOf]
  split
  next before name found =>
    obtain ⟨_, rest, _, read⟩ := Scan.first_eq_some_read found
    have stated := read_of_atLineStart read
    simp only [namespace?, Option.bind_eq_bind, Option.bind_eq_some_iff] at stated
    obtain ⟨_, _, _, _, ⟨named, after⟩, isName, _, _, eq⟩ := stated
    cases eq
    exact .inr (isFull_of_qualified? isName)
  next => exact .inl rfl

theorem isFull_of_mem_importsOf {source : List Char} {e : String × String}
    (h : e ∈ (importsOf source).entries) : IsFull e.2 := by
  obtain ⟨u, isUse, rfl⟩ := List.mem_map.1 (Dict.mem_of_mem_entries_ofList h)
  obtain ⟨_, place, rest, read⟩ := Scan.exists_of_mem_all isUse
  have stated := read_of_atLineStart read
  simp only [use?, Option.bind_eq_bind, Option.bind_eq_some_iff] at stated
  obtain ⟨_, _, _, _, ⟨named, after⟩, isName, _, _, eq⟩ := stated
  cases eq
  exact isFull_of_qualified? isName

/-- The parts of a class head: the name, and the class it extends if one is given. -/
theorem classHead?_eq_some {text : List Char} {head : ClassHead} (h : classHead? text = some head) :
    ∃ after, identifier? head.fromName = some (head.name, after) ∧
      match Php.extends? after with
      | some (parent, rest) => head.extends? = some parent ∧ head.rest = rest
      | none => head.extends? = none ∧ head.rest = after := by
  simp only [classHead?, Option.bind_eq_bind, Option.bind_eq_some_iff] at h
  obtain ⟨_, _, fromName, _, ⟨name, after⟩, isName, eq⟩ := h
  split at eq
  next parent rest found =>
    cases eq
    exact ⟨after, isName, by simp only [found, and_self]⟩
  next none =>
    cases eq
    exact ⟨after, isName, by simp only [none, and_self]⟩

theorem isFull_classNameOf {source : List Char} {decl : ClassDecl} (h : classOf source = some decl) :
    IsFull (classNameOf source) := by
  simp only [classNameOf, h]
  obtain ⟨⟨before, head⟩, found, rfl⟩ := Option.map_eq_some_iff.1 h
  obtain ⟨_, rest, _, read⟩ := Scan.first_eq_some_read found
  obtain ⟨after, isName, _⟩ := classHead?_eq_some (read_of_atLineStart read)
  exact IsFull.qualify (isFull_namespaceOf source) (isFull_of_identifier? isName)

theorem isReference_parent {source : List Char} {decl : ClassDecl} (h : classOf source = some decl)
    (extending : decl.parent ≠ "") : IsReference decl.parent := by
  obtain ⟨⟨before, head⟩, found, rfl⟩ := Option.map_eq_some_iff.1 h
  obtain ⟨_, rest, _, read⟩ := Scan.first_eq_some_read found
  obtain ⟨after, isName, tail⟩ := classHead?_eq_some (read_of_atLineStart read)
  split at tail
  next parent rest clause =>
    simp only [Php.extends?, Option.bind_eq_bind, Option.bind_eq_some_iff] at clause
    obtain ⟨_, _, _, _, _, _, isParent⟩ := clause
    simp only [tail.1, Option.getD_some]
    exact isReference_of_rooted? isParent
  next =>
    refine absurd ?_ extending
    simp only [tail.1, Option.getD_none]

/-- The class that the first one of a file extends, as the file's imports and namespace have it. -/
def parentNameOf (order : Dict.Listing String) (source : List Char) (decl : ClassDecl) : String :=
  ClassName.resolve order (importsOf source) (namespaceOf source) decl.parent

theorem isFull_parentNameOf {source : List Char} {decl : ClassDecl} (h : classOf source = some decl)
    (extending : decl.parent ≠ "") (order : Dict.Listing String) :
    IsFull (parentNameOf order source decl) :=
  isFull_resolve (fun _ => isFull_of_mem_importsOf) (isFull_namespaceOf source)
    (isReference_parent h extending) order

theorem exists_of_mem_paramsFrom {orders : Nat → Dict.Listing String} {imports : Dict String}
    {space : String} {segments : List (List Char)} {line : Nat} {p : Param}
    (h : p ∈ paramsFrom orders imports space line segments) :
    ∃ order here segment, param? order imports space here segment = some p := by
  induction segments generalizing orders line with
  | nil => cases h
  | cons segment segments ih =>
    simp only [paramsFrom] at h
    split at h
    next q found =>
      rcases List.mem_cons.1 h with rfl | later
      · exact ⟨_, _, _, found⟩
      · exact ih later
    next => exact ih h

theorem isFull_of_param? {order : Dict.Listing String} {imports : Dict String} {space : String}
    {line : Nat} {segment : List Char} {p : Param}
    (h : param? order imports space line segment = some p) : IsFull p.name := by
  simp only [param?, Option.bind_eq_bind] at h
  split at h
  · cases h
  · obtain ⟨text, read, eq⟩ := Option.bind_eq_some_iff.1 h
    simp only [paramText?, Option.bind_eq_bind, Option.bind_eq_some_iff] at read
    obtain ⟨_, _, ⟨name, rest⟩, isName, made⟩ := read
    obtain rfl := Option.some.inj made
    obtain rfl := Option.some.inj eq
    exact isFull_of_identifier? isName

/-- The parameters of a constructor have identifiers for names. -/
theorem isFull_paramName {orders : Nat → Dict.Listing String} {source : List Char} {ctor : Constructor}
    (h : constructorOf orders source = some ctor) {p : Param} (mem : p ∈ ctor.params) :
    IsFull p.name := by
  obtain ⟨found, _, rfl⟩ := Option.map_eq_some_iff.1 h
  obtain ⟨_, _, _, read⟩ := exists_of_mem_paramsFrom mem
  exact isFull_of_param? read

end Php

theorem declaredIn?_eq (order : Dict.Listing String) (content : String) :
    declaredIn? order content = (Php.classOf content.toList).map fun decl =>
      { className := Php.classNameOf content.toList
        parent := if decl.parent = "" then "" else Php.parentNameOf order content.toList decl } := by
  simp only [declaredIn?]
  split
  next empty =>
    have none : Php.classOf content.toList = none := by
      rw [empty]
      decide +kernel
    rw [none, Option.map_none]
  next =>
    cases first : Php.classOf content.toList with
    | none => rfl
    | some decl => simp only [Php.classNameOf, Php.parentNameOf, first, Option.map_some]

/-- If a file names a parent of its class, it is by its full name. -/
theorem isFull_of_declaredIn? {order : Dict.Listing String} {content : String} {d : Declared}
    (h : declaredIn? order content = some d) (extending : d.parent ≠ "") :
    ClassName.IsFull d.parent := by
  rw [declaredIn?_eq] at h
  obtain ⟨decl, first, rfl⟩ := Option.map_eq_some_iff.1 h
  by_cases root : decl.parent = ""
  · exact absurd (if_pos root) extending
  · simp only [if_neg root]
    exact Php.isFull_parentNameOf first root order

end ShopLint
