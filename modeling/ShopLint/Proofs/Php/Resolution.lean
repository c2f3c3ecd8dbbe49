import ShopLint.Php.ClassName
import ShopLint.Proofs.Dict

/-!
What a class name can mean, over all orders in which the imports of a file may be gone through. A short
name that is not imported as written is looked for without regard to case, and the first import that
fits counts. So the order decides, just if imports that differ in case only lead to different classes.
-/

namespace ShopLint

/-- Texts that equal a third one without regard to case equal each other so. -/
theorem Text.equalFold_of_common {a b c : String} (h : equalFold a c) (h' : equalFold b c) :
    equalFold a b := by
  simp only [equalFold, beq_iff_eq] at h h' ⊢
  exact h.trans h'.symm

theorem Text.equalFold_self (a : String) : equalFold a a := by
  simp [equalFold]

namespace Dict

variable {α : Type}

/-- However the entries are listed, a key is found with its value. -/
theorem lookup_of_perm {dict : Dict α} {order : List (String × α)} (h : order.Perm dict.entries)
    (key : String) : order.lookup key = dict.get? key := by
  cases found : order.lookup key with
  | some value =>
    obtain ⟨before, after, rfl, _⟩ := List.lookup_eq_some_iff.1 found
    have mem : (key, value) ∈ dict.entries :=
      h.subset (List.mem_append_right before List.mem_cons_self)
    exact ((mem_entries_iff dict key value).1 mem).symm
  | none =>
    rw [List.lookup_eq_none_iff] at found
    refine (Option.eq_none_iff_forall_ne_some.2 fun value listed => ?_).symm
    have mem : (key, value) ∈ order := h.symm.subset ((mem_entries_iff dict key value).2 listed)
    simpa using found _ mem

end Dict

namespace ClassName

/-- A name that is looked up among the imports. -/
structure IsShort (name : String) : Prop where
  nonempty : name ≠ ""
  plain : Text.contains name "\\" = false

/-- What a short name can stand for: the import of that name, else an import of that name in another
case, else a class of the namespace. -/
inductive Denotes (imports : Dict String) (space short : String) : String → Prop
  | imported {full : String} (listed : imports.get? short = some full) :
      Denotes imports space short full
  | folded {key full : String} (unlisted : imports.get? short = none)
      (listed : imports.get? key = some full) (same : Text.equalFold key short) :
      Denotes imports space short full
  | nearby (strange : ∀ key full, imports.get? key = some full → ¬Text.equalFold key short) :
      Denotes imports space short (qualify space short)

/-- What a name can mean in a file with the given imports and namespace. -/
def Means (imports : Dict String) (space name full : String) : Prop :=
  Text.trim name = "" ∧ full = "" ∨
  Text.contains (Text.trim name) "\\" ∧ full = Text.dropStart "\\" (Text.trim name) ∨
  IsShort (Text.trim name) ∧ Denotes imports space (Text.trim name) full

/-- Imports that differ from a name in case only lead it to different classes. -/
structure Ambiguous (imports : Dict String) (name : String) : Prop where
  short : IsShort (Text.trim name)
  unlisted : imports.get? (Text.trim name) = none
  apart : ∃ key other full full', imports.get? key = some full ∧ imports.get? other = some full' ∧
    Text.equalFold key (Text.trim name) ∧ Text.equalFold other (Text.trim name) ∧ full ≠ full'

section

variable {imports : Dict String} {space name short full full' : String}
  {order : List (String × String)}

theorem resolveAmong_of_blank (blank : Text.trim name = "") : resolveAmong order space name = "" := by
  simp only [resolveAmong, if_pos blank]

theorem ne_empty_of_qualified (h : Text.contains name "\\") : name ≠ "" := by
  rintro rfl
  exact absurd h (by decide)

theorem resolveAmong_of_qualified (qualified : Text.contains (Text.trim name) "\\") :
    resolveAmong order space name = Text.dropStart "\\" (Text.trim name) := by
  simp only [resolveAmong, if_neg (ne_empty_of_qualified qualified), if_pos qualified]

/-- The class found for a short name when the imports are gone through in an order. -/
def lookUp (order : List (String × String)) (space short : String) : String :=
  ((order.lookup short).or ((order.find? fun e => Text.equalFold e.1 short).map Prod.snd)).getD
    (qualify space short)

theorem resolveAmong_of_short (h : IsShort (Text.trim name)) :
    resolveAmong order space name = lookUp order space (Text.trim name) := by
  have plain : ¬Text.contains (Text.trim name) "\\" := by simp [h.plain]
  simp only [resolveAmong, if_neg h.nonempty, if_neg plain, lookUp]
  cases order.lookup (Text.trim name) with
  | some full => rfl
  | none => cases order.find? fun e => Text.equalFold e.1 (Text.trim name) <;> rfl

/-- In every order a short name is found to be something that it can stand for. -/
theorem denotes_lookUp (h : order.Perm imports.entries) :
    Denotes imports space short (lookUp order space short) := by
  rw [lookUp, Dict.lookup_of_perm h]
  cases listed : imports.get? short with
  | some full => exact .imported listed
  | none =>
    cases found : order.find? fun e => Text.equalFold e.1 short with
    | some e =>
      have mem : e ∈ imports.entries := h.subset (List.mem_of_find?_eq_some found)
      have same : Text.equalFold e.1 short := by simpa using List.find?_some found
      exact .folded listed ((Dict.mem_entries_iff imports e.1 e.2).1 mem) same
    | none =>
      refine .nearby fun key full isImport same => ?_
      have mem : (key, full) ∈ order :=
        h.symm.subset ((Dict.mem_entries_iff imports key full).2 isImport)
      exact List.find?_eq_none.1 found _ mem same

/-- Whatever a short name can stand for is found in some order: in one that begins with the import in
question. -/
theorem Denotes.exists_order (h : Denotes imports space short full) :
    ∃ order, order.Perm imports.entries ∧ lookUp order space short = full := by
  cases h with
  | imported listed =>
    refine ⟨imports.entries, .refl _, ?_⟩
    rw [lookUp, Dict.lookup_of_perm (.refl _), listed]
    rfl
  | @folded key _ unlisted listed same =>
    have mem := (Dict.mem_entries_iff imports key full).2 listed
    have reordered : ((key, full) :: imports.entries.erase (key, full)).Perm imports.entries :=
      (List.perm_cons_erase mem).symm
    refine ⟨_, reordered, ?_⟩
    simp only [lookUp, Dict.lookup_of_perm reordered, unlisted, List.find?_cons, same]
    rfl
  | nearby strange =>
    have unlisted : imports.get? short = none :=
      Option.eq_none_iff_forall_ne_some.2 fun full listed =>
        strange _ full listed (Text.equalFold_self _)
    have unfound : imports.entries.find? (fun e => Text.equalFold e.1 short) = none :=
      List.find?_eq_none.2 fun e mem => strange e.1 e.2 ((Dict.mem_entries_iff imports e.1 e.2).1 mem)
    refine ⟨imports.entries, .refl _, ?_⟩
    rw [lookUp, Dict.lookup_of_perm (.refl _), unlisted, unfound]
    rfl

/-- Imports that fit a short name only without regard to case are all that can make it stand for
different classes. -/
theorem Denotes.unique (h : Denotes imports space short full) (h' : Denotes imports space short full')
    (clear : imports.get? short = none → ∀ key other full full', imports.get? key = some full →
      imports.get? other = some full' → Text.equalFold key short → Text.equalFold other short →
        full = full') : full = full' := by
  cases h with
  | imported listed =>
    cases h' with
    | imported listed' => exact Option.some.inj (listed.symm.trans listed')
    | folded unlisted => exact absurd (listed.symm.trans unlisted) (by simp)
    | nearby strange => exact absurd (Text.equalFold_self _) (strange _ _ listed)
  | folded unlisted listed same =>
    cases h' with
    | imported listed' => exact absurd (listed'.symm.trans unlisted) (by simp)
    | folded _ listed' same' => exact clear unlisted _ _ _ _ listed listed' same same'
    | nearby strange => exact absurd same (strange _ _ listed)
  | nearby strange =>
    cases h' with
    | imported listed' => exact absurd (Text.equalFold_self _) (strange _ _ listed')
    | folded _ listed' same' => exact absurd same' (strange _ _ listed')
    | nearby => rfl

theorem means_resolveAmong (h : order.Perm imports.entries) :
    Means imports space name (resolveAmong order space name) := by
  by_cases blank : Text.trim name = ""
  · exact .inl ⟨blank, resolveAmong_of_blank blank⟩
  cases qualified : Text.contains (Text.trim name) "\\" with
  | true => exact .inr (.inl ⟨qualified, resolveAmong_of_qualified qualified⟩)
  | false =>
    have short : IsShort (Text.trim name) := ⟨blank, qualified⟩
    refine .inr (.inr ⟨short, ?_⟩)
    rw [resolveAmong_of_short short]
    exact denotes_lookUp h

theorem Means.exists_order (h : Means imports space name full) :
    ∃ order, order.Perm imports.entries ∧ resolveAmong order space name = full := by
  rcases h with ⟨blank, rfl⟩ | ⟨qualified, eq⟩ | ⟨short, denotes⟩
  · exact ⟨imports.entries, .refl _, resolveAmong_of_blank blank⟩
  · exact ⟨imports.entries, .refl _, (resolveAmong_of_qualified qualified).trans eq.symm⟩
  · obtain ⟨order, reordered, found⟩ := denotes.exists_order
    exact ⟨order, reordered, (resolveAmong_of_short short).trans found⟩

/-- Whatever a name can mean is found by some way of listing imports. -/
theorem Means.exists_listing (h : Means imports space name full) :
    ∃ listing : Dict.Listing String, resolve listing imports space name = full := by
  obtain ⟨order, reordered, found⟩ := h.exists_order
  have perm (dict : Dict String) :
      (if dict = imports then order else dict.entries).Perm dict.entries := by
    split
    next eq => exact eq ▸ reordered
    next => exact .refl _
  exact ⟨⟨_, perm⟩, by simp only [resolve, if_true, found]⟩

/-- A name that is not ambiguous has one meaning. -/
theorem Means.unique (h : Means imports space name full) (h' : Means imports space name full')
    (clear : ¬Ambiguous imports name) : full = full' := by
  rcases h with ⟨blank, rfl⟩ | ⟨qualified, eq⟩ | ⟨short, denotes⟩
  · rcases h' with ⟨_, rfl⟩ | ⟨qualified', _⟩ | ⟨short', _⟩
    · rfl
    · exact absurd blank (ne_empty_of_qualified qualified')
    · exact absurd blank short'.nonempty
  · rcases h' with ⟨blank', _⟩ | ⟨_, eq'⟩ | ⟨short', _⟩
    · exact absurd blank' (ne_empty_of_qualified qualified)
    · exact eq.trans eq'.symm
    · exact absurd qualified (by simp [short'.plain])
  · rcases h' with ⟨blank', _⟩ | ⟨qualified', _⟩ | ⟨_, denotes'⟩
    · exact absurd blank' short.nonempty
    · exact absurd qualified' (by simp [short.plain])
    · refine denotes.unique denotes' fun unlisted key other full full' listed listed' same same' => ?_
      by_contra apart
      exact clear ⟨short, unlisted, key, other, full, full', listed, listed', same, same', apart⟩

/-- Such a name is resolved alike in whatever orders the imports are gone through. -/
theorem resolve_eq_of_not_ambiguous (clear : ¬Ambiguous imports name)
    (order order' : Dict.Listing String) (space : String) :
    resolve order imports space name = resolve order' imports space name :=
  (means_resolveAmong (order.perm imports)).unique (means_resolveAmong (order'.perm imports)) clear

/-- Imports whose names differ by more than case leave nothing ambiguous. -/
theorem not_ambiguous_of_distinct
    (distinct : ∀ key ∈ imports.keys, ∀ other ∈ imports.keys, Text.equalFold key other → key = other)
    (name : String) : ¬Ambiguous imports name := by
  intro ambiguous
  obtain ⟨key, other, full, full', listed, listed', same, same', apart⟩ := ambiguous.apart
  have isKey := (Dict.mem_keys_iff imports key).2 ⟨full, listed⟩
  have isKey' := (Dict.mem_keys_iff imports other).2 ⟨full', listed'⟩
  obtain rfl := distinct key isKey other isKey' (Text.equalFold_of_common same same')
  exact apart (Option.some.inj (listed.symm.trans listed'))

/-- Both classes that an ambiguous name is led to are meanings of it. -/
theorem Ambiguous.two_meanings (h : Ambiguous imports name) (space : String) :
    ∃ full full', Means imports space name full ∧ Means imports space name full' ∧ full ≠ full' := by
  obtain ⟨key, other, full, full', listed, listed', same, same', apart⟩ := h.apart
  exact ⟨full, full', .inr (.inr ⟨h.short, .folded h.unlisted listed same⟩),
    .inr (.inr ⟨h.short, .folded h.unlisted listed' same'⟩), apart⟩

end

/-- **What the order of the imports decides.** A name is resolved to its meanings, and to each of them
in some order of the imports. All orders agree unless the name is ambiguous, and then they do not. No
name is ambiguous in a file whose imports have names that differ by more than case. -/
theorem resolveAmong_order_irrelevant_iff (imports : Dict String) (space name : String) :
    (∀ full, (∃ order, order.Perm imports.entries ∧ resolveAmong order space name = full) ↔
      Means imports space name full) ∧
    ((∀ order order', order.Perm imports.entries → order'.Perm imports.entries →
      resolveAmong order space name = resolveAmong order' space name) ↔ ¬Ambiguous imports name) ∧
    ((∀ key ∈ imports.keys, ∀ other ∈ imports.keys, Text.equalFold key other → key = other) →
      ¬Ambiguous imports name) := by
  refine ⟨fun full => ⟨?_, Means.exists_order⟩,
    ⟨fun agree ambiguous => ?_, fun clear order order' reordered reordered' => ?_⟩,
    fun distinct => not_ambiguous_of_distinct distinct name⟩
  · rintro ⟨order, reordered, rfl⟩
    exact means_resolveAmong reordered
  · obtain ⟨full, full', means, means', apart⟩ := ambiguous.two_meanings space
    obtain ⟨order, reordered, rfl⟩ := means.exists_order
    obtain ⟨order', reordered', rfl⟩ := means'.exists_order
    exact apart (agree order order' reordered reordered')
  · exact (means_resolveAmong reordered).unique (means_resolveAmong reordered') clear

/-- Two imports whose names differ in case only. -/
def spellings : Dict String := .ofList [("ITEM", "Old\\Item"), ("Item", "New\\Item")]

/-- A third spelling is ambiguous, and the order of the imports decides between the two classes. -/
theorem resolveAmong_order_irrelevant_iff_spellings :
    Ambiguous spellings "item" ∧
    (∃ order, order.Perm spellings.entries ∧ resolveAmong order "Shop" "item" = "Old\\Item") ∧
    (∃ order, order.Perm spellings.entries ∧ resolveAmong order "Shop" "item" = "New\\Item") ∧
    ¬∀ order order', order.Perm spellings.entries → order'.Perm spellings.entries →
      resolveAmong order "Shop" "item" = resolveAmong order' "Shop" "item" := by
  have short : IsShort (Text.trim "item") := ⟨by decide +kernel, by decide +kernel⟩
  have unlisted : spellings.get? (Text.trim "item") = none := by decide +kernel
  have listed : spellings.get? "ITEM" = some "Old\\Item" := by decide +kernel
  have listed' : spellings.get? "Item" = some "New\\Item" := by decide +kernel
  have same : Text.equalFold "ITEM" (Text.trim "item") := by decide +kernel
  have same' : Text.equalFold "Item" (Text.trim "item") := by decide +kernel
  have ambiguous : Ambiguous spellings "item" :=
    ⟨short, unlisted, _, _, _, _, listed, listed', same, same', by decide⟩
  obtain ⟨meanings, agree, _⟩ := resolveAmong_order_irrelevant_iff spellings "Shop" "item"
  exact ⟨ambiguous, (meanings _).2 (.inr (.inr ⟨short, .folded unlisted listed same⟩)),
    (meanings _).2 (.inr (.inr ⟨short, .folded unlisted listed' same'⟩)),
    fun all => agree.1 all ambiguous⟩

end ClassName

end ShopLint
