import ShopLint.Host
import ShopLint.Proofs.Path

/-!
Finding files by their paths. What a path leads to below a directory depends on that directory alone:
the way to it, with all its links, can be replaced by any other way.
-/

namespace ShopLint

/-- A name that a directory can give to an entry. -/
def Path.IsProper (name : String) : Prop := IsName name ∧ name ≠ "." ∧ name ≠ ".."

instance (name : String) : Decidable (Path.IsProper name) := inferInstanceAs (Decidable (_ ∧ _))

namespace Entry

mutual

/-- Below the entry every directory has proper names, in strictly increasing order. -/
def Proper : Entry → Prop
  | dir entries => ProperIn entries
  | _ => True

def ProperIn : List (String × Entry) → Prop
  | [] => True
  | (name, entry) :: rest =>
    Path.IsProper name ∧ (∀ e ∈ rest, name < e.1) ∧ entry.Proper ∧ ProperIn rest

end

theorem at?_append (tree : Entry) (names more : List String) :
    tree.at? (names ++ more) = (tree.at? names).bind (·.at? more) := by
  induction names generalizing tree with
  | nil => rfl
  | cons name names ih =>
    simp only [List.cons_append, at?, Option.bind_assoc]
    congr
    funext e
    exact ih e

theorem at?_singleton (tree : Entry) (name : String) : tree.at? [name] = tree.entries.lookup name := by
  simp only [at?, Option.bind_fun_some]

/-- Only a directory has something below it. -/
theorem eq_dir_of_at?_cons {tree entry : Entry} {name : String} {names : List String}
    (h : tree.at? (name :: names) = some entry) : ∃ entries, tree = dir entries := by
  cases tree with
  | dir entries => exact ⟨entries, rfl⟩
  | file bytes => simp [at?, entries] at h
  | device => simp [at?, entries] at h
  | link target => simp [at?, entries] at h

theorem eq_dir_of_isDir {entry : Entry} (h : entry.isDir) : ∃ entries, entry = dir entries := by
  cases entry with
  | dir entries => exact ⟨entries, rfl⟩
  | file bytes => cases h
  | device => cases h
  | link target => cases h

theorem ProperIn.lookup {entries : List (String × Entry)} (h : ProperIn entries) {e : String × Entry}
    (mem : e ∈ entries) : entries.lookup e.1 = some e.2 := by
  induction entries with
  | nil => simp at mem
  | cons first rest ih =>
    obtain ⟨name, entry⟩ := first
    obtain ⟨_, before, _, others⟩ := h
    rcases List.mem_cons.1 mem with rfl | later
    · simp
    · have ne : (e.1 == name) = false := by
        simpa using fun eq : e.1 = name => String.lt_irrefl _ (eq ▸ before e later)
      simp only [List.lookup_cons, ne]
      exact ih others later

theorem ProperIn.of_lookup {entries : List (String × Entry)} (h : ProperIn entries) {name : String}
    {entry : Entry} (found : entries.lookup name = some entry) :
    Path.IsProper name ∧ entry.Proper := by
  induction entries with
  | nil => simp at found
  | cons first rest ih =>
    obtain ⟨n, e⟩ := first
    obtain ⟨properName, _, properEntry, others⟩ := h
    rw [List.lookup_cons] at found
    split at found
    next eq =>
      simp only [Option.some.injEq] at found
      exact ⟨beq_iff_eq.1 eq ▸ properName, found ▸ properEntry⟩
    next => exact ih others found

/-- What stands below a proper entry has proper names and is proper. -/
theorem Proper.of_at? {tree entry : Entry} (h : tree.Proper) {names : List String}
    (found : tree.at? names = some entry) : (∀ n ∈ names, Path.IsProper n) ∧ entry.Proper := by
  induction names generalizing tree with
  | nil =>
    simp only [at?, Option.some.injEq] at found
    exact ⟨by simp, found ▸ h⟩
  | cons name names ih =>
    obtain ⟨entries, rfl⟩ := eq_dir_of_at?_cons found
    obtain ⟨e, first, below⟩ := Option.bind_eq_some_iff.1 found
    obtain ⟨properName, properEntry⟩ := ProperIn.of_lookup h first
    obtain ⟨properNames, proper⟩ := ih properEntry below
    refine ⟨fun n mem => ?_, proper⟩
    rcases List.mem_cons.1 mem with rfl | later
    · exact properName
    · exact properNames n later

theorem ProperIn.of_at? {entries : List (String × Entry)} {entry : Entry} (h : ProperIn entries)
    {names : List String} (found : (dir entries).at? names = some entry) :
    (∀ n ∈ names, Path.IsProper n) ∧ entry.Proper :=
  have proper : (dir entries).Proper := h
  proper.of_at? found

theorem ne_nil_of_at?_file {entries : List (String × Entry)} {names : List String} {bytes : List UInt8}
    (h : (dir entries).at? names = some (file bytes)) : names ≠ [] := by
  rintro rfl
  cases h

/-! One step on the way -/

section

variable {tree : Entry} {follow : Bool} {links : Nat} {here : List String} {name : String}

theorem locate_skip (h : (name = "" || name = ".") = true) (rest : List String) :
    tree.locate follow links here (name :: rest) = tree.locate follow links here rest := by
  rw [locate, if_pos h]

theorem locate_up (rest : List String) :
    tree.locate follow links here (".." :: rest) = tree.locate follow links here.dropLast rest := by
  rw [locate, if_neg (by decide), if_pos rfl]

theorem locate_dir (named : ¬(name = "" || name = ".") = true) (down : name ≠ "..")
    (short : ¬255 < name.utf8ByteSize) {entries : List (String × Entry)}
    (found : tree.at? (here ++ [name]) = some (dir entries)) (rest : List String) :
    tree.locate follow links here (name :: rest) = tree.locate follow links (here ++ [name]) rest := by
  rw [locate, if_neg named, if_neg down, if_neg short, found]

theorem locate_link (named : ¬(name = "" || name = ".") = true) (down : name ≠ "..")
    (short : ¬255 < name.utf8ByteSize) {target : String}
    (found : tree.at? (here ++ [name]) = some (link target)) (rest : List String) :
    tree.locate true (links + 1) here (name :: rest) =
      tree.locate true links (if Path.isAbsolute target then [] else here)
        (Path.segments target ++ rest) := by
  rw [locate, if_neg named, if_neg down, if_neg short, found]
  simp

end

/-- A way that ends at a directory can be gone on from there. How many links are left does not depend
on where it goes on to. -/
theorem locate_append {tree : Entry} {links : Nat} {here todo names : List String}
    {entries : List (String × Entry)}
    (h : tree.locate false links here todo = .ok (.found names (dir entries))) :
    tree.at? names = some (dir entries) ∧
      ∃ left, ∀ more, tree.locate true links here (todo ++ more) = tree.locate true left names more := by
  -- along the way itself: a link at its end would not be a directory
  fun_induction tree.locate false links here todo with
  | case1 links here entry found =>
    cases h
    exact ⟨found, links, fun _ => rfl⟩
  | case3 links here name rest skipped ih =>
    obtain ⟨found, left, goesOn⟩ := ih h
    exact ⟨found, left, fun more => (locate_skip skipped _).trans (goesOn more)⟩
  | case4 links here rest named ih =>
    obtain ⟨found, left, goesOn⟩ := ih h
    exact ⟨found, left, fun more => (locate_up _).trans (goesOn more)⟩
  | case8 links here name rest named down short inner isDir ih =>
    obtain ⟨found, left, goesOn⟩ := ih h
    exact ⟨found, left, fun more => (locate_dir named down short isDir _).trans (goesOn more)⟩
  | case11 here name rest named down short target isLink followed links ih =>
    obtain ⟨found, left, goesOn⟩ := ih h
    refine ⟨found, left, fun more => ?_⟩
    rw [List.cons_append, locate_link named down short isLink, ← List.append_assoc]
    exact goesOn more
  | case12 links here name rest named down short entry notDir notLink isEntry last =>
    cases h
    exact absurd rfl (notDir _)
  | case2 | case5 | case6 | case7 | case9 | case10 | case13 => cases h

/-- Going down by names to anything but a link: the way is free unless a name is too long. -/
theorem locate_names {tree start entry : Entry} {follow : Bool} {links : Nat} {here names : List String}
    (h : tree.at? here = some start) (below : start.at? names = some entry)
    (notLink : ∀ target, entry ≠ link target) (proper : ∀ n ∈ names, Path.IsProper n) :
    tree.locate follow links here names =
      if ∀ n ∈ names, n.utf8ByteSize ≤ 255 then .ok (.found (here ++ names) entry)
      else .error .nameTooLong := by
  induction names generalizing here start with
  | nil =>
    cases below
    simp [locate, h]
  | cons name names ih =>
    obtain ⟨⟨nonempty, _⟩, notDot, down⟩ := proper name List.mem_cons_self
    have named : ¬(name = "" || name = ".") = true := by simp [nonempty, notDot]
    by_cases short : 255 < name.utf8ByteSize
    · rw [locate, if_neg named, if_neg down, if_pos short, if_neg]
      exact fun all => absurd (all name List.mem_cons_self) (Nat.not_le.2 short)
    have all : (∀ n ∈ name :: names, n.utf8ByteSize ≤ 255) ↔ ∀ n ∈ names, n.utf8ByteSize ≤ 255 := by
      rw [List.forall_mem_cons]
      exact and_iff_right (Nat.not_lt.1 short)
    obtain ⟨e, first, rest⟩ := Option.bind_eq_some_iff.1 below
    have found : tree.at? (here ++ [name]) = some e := by
      rw [at?_append, h, Option.bind_some, at?_singleton, first]
    by_cases isDir : e.isDir
    · obtain ⟨entries, rfl⟩ := eq_dir_of_isDir isDir
      rw [locate_dir named down short found,
        ih found rest fun n mem => proper n (List.mem_cons_of_mem _ mem)]
      simp only [all, List.append_assoc, List.singleton_append]
    · -- only the last name leads to something else
      obtain rfl : names = [] := by
        cases names with
        | nil => rfl
        | cons next names =>
          obtain ⟨entries, rfl⟩ := eq_dir_of_at?_cons rest
          exact absurd rfl isDir
      cases rest
      rw [locate, if_neg named, if_neg down, if_neg short, found]
      cases entry with
      | dir entries => exact absurd rfl isDir
      | link target => exact absurd rfl (notLink target)
      | file bytes => simp only [all]; simp
      | device => simp only [all]; simp

end Entry

end ShopLint
