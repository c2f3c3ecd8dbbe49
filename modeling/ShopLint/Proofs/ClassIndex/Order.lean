import ShopLint.Proofs.ClassIndex.Consistency
import ShopLint.Proofs.Placement
import ShopLint.Proofs.Reordered
import ShopLint.Proofs.Text.Order
import Mathlib.Data.List.Induction

/-!
The order in which files are indexed. In general the first file that declares a class counts. Where no
two files declare the same class, neither the order nor repetitions can be seen in any answer, unless
the order in which imports are gone through can: it decides what an ambiguous name stands for.
-/

namespace ShopLint.ClassIndex

/-- The file declares the class. -/
def declares (host : Host) (c path : String) : Bool :=
  (host.declared? path).any fun d => d.className = c

/-- The parent of the class that a file declares, if it extends one. -/
def parentIn? (host : Host) (path : String) : Option String :=
  (host.declared? path).bind fun d => if d.parent = "" then none else some d.parent

theorem declares_iff {host : Host} {c path : String} :
    declares host c path ↔
      ∃ d, host.declared? path = some d ∧ d.className = c := by
  simp [declares, Option.any_eq_true]

theorem parentIn?_eq_some {host : Host} {path p : String} :
    parentIn? host path = some p ↔
      p ≠ "" ∧ ∃ d, host.declared? path = some d ∧ d.parent = p := by
  simp only [parentIn?, Option.bind_eq_some_iff]
  constructor
  · rintro ⟨d, content, eq⟩
    split at eq
    · simp at eq
    next nonempty =>
      cases eq
      exact ⟨nonempty, d, content, rfl⟩
  · rintro ⟨nonempty, d, content, rfl⟩
    exact ⟨d, content, if_neg nonempty⟩

/-- The first of the files that declares a class counts, for its place and for its parent. -/
def FirstCounts (host : Host) (paths : List String) (index : ClassIndex) : Prop :=
  ∀ c, index.files.get? c = paths.find? (declares host c) ∧
    index.parents.get? c = (paths.find? (declares host c)).bind (parentIn? host)

namespace FirstCounts

variable {host : Host} {paths : List String} {index : ClassIndex} {path : String} {d : Declared}

/-- A file that declares nothing new comes too late. -/
theorem snoc_of_seen (h : FirstCounts host paths index)
    (seen : ∀ c, declares host c path → (index.files.get? c).isSome) :
    FirstCounts host (paths ++ [path]) index := by
  intro c
  have unmoved : (paths ++ [path]).find? (declares host c) = paths.find? (declares host c) := by
    rw [List.find?_append, List.find?_singleton]
    split
    next declared =>
      obtain ⟨first, eq⟩ := Option.isSome_iff_exists.1 (seen c declared)
      rw [← (h c).1, eq]
      rfl
    next => exact Option.or_none
  rw [unmoved]
  exact h c

theorem declare (h : FirstCounts host paths index) (consistent : index.Consistent)
    (content : host.declared? path = some d)
    (fresh : index.files.get? d.className = none) :
    FirstCounts host (paths ++ [path]) (index.declare path d) := by
  intro c
  obtain ⟨files, parents⟩ := h c
  rw [files_declare fresh, parents_declare fresh, List.find?_append, List.find?_singleton]
  by_cases same : c = d.className
  · subst same
    have declared : declares host d.className path := declares_iff.2 ⟨d, content, rfl⟩
    have before : paths.find? (declares host d.className) = none := files ▸ fresh
    rw [before, if_pos rfl, if_pos declared, consistent.parents_eq_none fresh]
    refine ⟨rfl, ?_⟩
    by_cases root : d.parent = "" <;> simp [parentIn?, content, root]
  · have silent : ¬declares host c path := by
      intro declared
      obtain ⟨e, content', rfl⟩ := declares_iff.1 declared
      cases content.symm.trans content'
      exact same rfl
    have other : ¬(d.parent ≠ "" ∧ c = d.className) := fun both => same both.2
    rw [if_neg same, if_neg other, if_neg silent, Option.or_none]
    exact ⟨files, parents⟩

theorem addFile (h : FirstCounts host paths index) (consistent : index.Consistent)
    (looked : path ∈ index.processed → path ∈ paths) :
    FirstCounts host (paths ++ [path]) (index.addFile host path) := by
  have step := addFile_adds host index path
  generalize index.addFile host path = next at step ⊢
  cases step with
  | known done =>
    refine h.snoc_of_seen fun c declared => ?_
    rw [(h c).1]
    exact List.find?_isSome.2 ⟨path, looked done, declared⟩
  | silent new old =>
    have marked : FirstCounts host paths (index.mark path) := h
    refine marked.snoc_of_seen fun c declared => ?_
    obtain ⟨d, content, rfl⟩ := declares_iff.1 declared
    exact Option.isSome_iff_exists.2 (old d content)
  | declares new d content fresh =>
    have marked : FirstCounts host paths (index.mark path) := h
    exact marked.declare (consistent.mark new) content fresh

end FirstCounts

theorem addFiles_firstCounts (host : Host) (paths : List String) :
    FirstCounts host paths (({} : ClassIndex).addFiles host paths) := by
  induction paths using List.reverseRecOn with
  | nil => exact fun c => ⟨rfl, rfl⟩
  | append_singleton paths path ih =>
    have last : ({} : ClassIndex).addFiles host (paths ++ [path]) =
        (({} : ClassIndex).addFiles host paths).addFile host path := by
      simp only [addFiles, List.foldl_append, List.foldl_cons, List.foldl_nil]
    rw [last]
    refine ih.addFile (Consistent.empty.run [.files host paths]).1 fun done => ?_
    simpa using (mem_processed_addFiles host {} paths path).1 done

/-! Answers that two indexes give alike -/

/-- Two indexes answer every question alike, when the imports of classes are gone through in some
orders for the one and in others for the other. -/
structure SameAnswers (host : Host) (orders orders' : String → Nat → Dict.Listing String)
    (a b : ClassIndex) : Prop where
  fileOf? : ∀ c, a.fileOf? c = b.fileOf? c
  parentOf? : ∀ c, a.parentOf? c = b.parentOf? c
  childrenOf : ∀ c, a.childrenOf c = b.childrenOf c
  ancestors : ∀ c, a.ancestors c = b.ancestors c
  size : a.size = b.size
  apiInterface? : ∀ c, a.apiInterface? host orders c = b.apiInterface? host orders' c

theorem ancestors_congr {a b : ClassIndex} (parents : a.parents = b.parents) (c : String) :
    a.ancestors c = b.ancestors c := by
  have climb (depth : Nat) (seen : List String) (c : String) :
      a.ancestorsFrom depth seen c = b.ancestorsFrom depth seen c := by
    induction depth generalizing seen c with
    | zero => rfl
    | succ depth ih => simp only [ancestorsFrom, parentOf?, parents, ih]
  simp only [ancestors, parents, climb]

/-- Sorting hides the order in which the children came. -/
theorem childrenOf_congr {a b : ClassIndex} (h : ∀ p, (a.listed p).Perm (b.listed p)) (c : String) :
    a.childrenOf c = b.childrenOf c := by
  refine List.Perm.eq_of_pairwise (fun x y _ _ => String.le_antisymm)
    (Text.sortBy_pairwise id (a.listed (ClassName.bare c)))
    (Text.sortBy_pairwise id (b.listed (ClassName.bare c))) ?_
  exact (Text.sortBy_perm id _).trans ((h _).trans (Text.sortBy_perm id _).symm)

/-- The orders do not bear on the interfaces of classes whose files are settled. -/
theorem interfaces?_eq_of_settled {host : Host} {index : ClassIndex}
    (settled : ∀ c path, index.files.get? c = some path → host.SettledHead path)
    (orders orders' : Nat → Dict.Listing String) (c : String) :
    index.interfaces? host orders c = index.interfaces? host orders' c := by
  simp only [interfaces?]
  refine Option.bind_congr fun path found => ?_
  rw [Php.implementsOf_eq_of_settled (settled _ path found) orders orders']

theorem sameAnswers_of_eq {host : Host} {orders orders' : String → Nat → Dict.Listing String}
    {a b : ClassIndex} (files : a.files = b.files) (parents : a.parents = b.parents)
    (listed : ∀ p, (a.listed p).Perm (b.listed p))
    (interfaces : ∀ c, a.interfaces? host (orders c) c = a.interfaces? host (orders' c) c) :
    SameAnswers host orders orders' a b := by
  have fileOf (c : String) : a.fileOf? c = b.fileOf? c := by simp only [ClassIndex.fileOf?, files]
  have parentOf (c : String) : a.parentOf? c = b.parentOf? c := by
    simp only [ClassIndex.parentOf?, parents]
  have each : (fun c => a.interfaces? host (orders c) c) = fun c => b.interfaces? host (orders' c) c := by
    funext c
    rw [interfaces]
    simp only [interfaces?, fileOf]
  constructor
  case fileOf? => exact fileOf
  case parentOf? => exact parentOf
  case childrenOf => exact childrenOf_congr listed
  case ancestors => exact ancestors_congr parents
  case size => simp only [ClassIndex.size, files]
  case apiInterface? =>
    intro c
    simp only [ClassIndex.apiInterface?, ancestors_congr parents, each]

/-- Consistent indexes with the same parents have the same children, in some order. -/
theorem Consistent.listed_perm {a b : ClassIndex} (ha : a.Consistent) (hb : b.Consistent)
    (parents : a.parents = b.parents) (p : String) : (a.listed p).Perm (b.listed p) := by
  rw [List.perm_ext_iff_of_nodup (ha.childrenOnce p) (hb.childrenOnce p)]
  intro c
  rw [ha.children, hb.children, parents]

/-! Going through imports in other orders -/

section Reordered

variable {host : Host} {paths : List String}

/-- The orders do not bear on what classes the files declare. -/
theorem declares_reordered (order : LookUp → Dict.Listing String) (c : String) :
    declares (host.reordered order) c = declares host c := by
  funext path
  simp only [declares, Host.declared?_eq, Option.any_map, Host.readOrEmpty_reordered]

theorem addFile_reordered {path : String} (settled : host.SettledParent path)
    (order : LookUp → Dict.Listing String) (index : ClassIndex) :
    index.addFile (host.reordered order) path = index.addFile host path := by
  simp only [addFile, Host.declared?_reordered settled]

theorem addFiles_reordered (settled : ∀ path ∈ paths, host.SettledParent path)
    (order : LookUp → Dict.Listing String) (index : ClassIndex) :
    index.addFiles (host.reordered order) paths = index.addFiles host paths := by
  induction paths generalizing index with
  | nil => simp only [addFiles, List.foldl_nil]
  | cons path paths ih =>
    simp only [addFiles, List.foldl_cons] at ih ⊢
    rw [addFile_reordered (settled path List.mem_cons_self)]
    exact ih (fun p mem => settled p (List.mem_cons_of_mem _ mem)) _

/-- Neither do they bear on the interfaces of classes whose files are settled. -/
theorem apiInterface?_reordered {index : ClassIndex}
    (settled : ∀ c path, index.files.get? c = some path → host.SettledHead path)
    (order : LookUp → Dict.Listing String) (orders orders' : String → Nat → Dict.Listing String)
    (c : String) :
    index.apiInterface? (host.reordered order) orders c = index.apiInterface? host orders' c :=
  (sameAnswers_of_eq rfl rfl (fun _ => .refl _) fun c =>
    interfaces?_eq_of_settled settled (orders c) (orders' c) c).apiInterface? c

/-- A file that is recorded in an index has been indexed. -/
theorem mem_of_get?_files {c path : String}
    (found : (({} : ClassIndex).addFiles host paths).files.get? c = some path) : path ∈ paths := by
  have looked := (Consistent.empty.run [.files host paths]).1.lookedAt c path found
  simpa using (mem_processed_addFiles host {} paths path).1 looked

end Reordered

/-- No two of the files declare the same class. -/
def Apart (host : Host) (paths : List String) : Prop :=
  ∀ p ∈ paths, ∀ q ∈ paths, ∀ d e, host.declared? p = some d →
    host.declared? q = some e → d.className = e.className → p = q

namespace Apart

variable {host : Host} {paths other : List String}

theorem unique (h : Apart host paths) (c : String) :
    ∀ p ∈ paths, ∀ q ∈ paths, declares host c p → declares host c q → p = q := by
  intro p inP q inQ declaresP declaresQ
  obtain ⟨d, contentP, nameP⟩ := declares_iff.1 declaresP
  obtain ⟨e, contentQ, nameQ⟩ := declares_iff.1 declaresQ
  exact h p inP q inQ d e contentP contentQ (nameP.trans nameQ.symm)

theorem find?_eq_some (h : Apart host paths) {c path : String} :
    paths.find? (declares host c) = some path ↔ path ∈ paths ∧ declares host c path := by
  constructor
  · intro found
    exact ⟨List.mem_of_find?_eq_some found, List.find?_some found⟩
  · rintro ⟨mem, declared⟩
    obtain ⟨first, eq⟩ := Option.isSome_iff_exists.1 (List.find?_isSome.2 ⟨path, mem, declared⟩)
    rw [eq, h.unique c first (List.mem_of_find?_eq_some eq) path mem (List.find?_some eq) declared]

theorem find?_eq (h : Apart host paths) (same : ∀ path, path ∈ other ↔ path ∈ paths) (c : String) :
    other.find? (declares host c) = paths.find? (declares host c) := by
  have apart : Apart host other := fun p inP q inQ => h p ((same p).1 inP) q ((same q).1 inQ)
  exact Option.ext fun path => by rw [h.find?_eq_some, apart.find?_eq_some, same]

/-- Which file declares a class is the same whatever the orders. -/
theorem files_eq (h : Apart host paths) (same : ∀ path, path ∈ other ↔ path ∈ paths)
    (order : LookUp → Dict.Listing String) :
    (({} : ClassIndex).addFiles (host.reordered order) other).files =
      (({} : ClassIndex).addFiles host paths).files := by
  refine Dict.ext_get? fun c => ?_
  rw [(addFiles_firstCounts (host.reordered order) other c).1, (addFiles_firstCounts host paths c).1,
    declares_reordered, h.find?_eq same]

/-- The parent of a class is the one that its file names. -/
theorem parentOf?_eq_some (h : Apart host paths) {c p : String} :
    (({} : ClassIndex).addFiles host paths).parentOf? c = some p ↔
      p ≠ "" ∧ ∃ path ∈ paths, ∃ d, host.declared? path = some d ∧
        d.className = ClassName.bare c ∧ d.parent = p := by
  rw [parentOf?, (addFiles_firstCounts host paths _).2, Option.bind_eq_some_iff]
  constructor
  · rintro ⟨path, eq, parent⟩
    obtain ⟨mem, declared⟩ := h.find?_eq_some.1 eq
    obtain ⟨d, content, name⟩ := declares_iff.1 declared
    obtain ⟨nonempty, e, content', rfl⟩ := parentIn?_eq_some.1 parent
    cases content.symm.trans content'
    exact ⟨nonempty, path, mem, d, content, name, rfl⟩
  · rintro ⟨nonempty, path, mem, d, content, name, rfl⟩
    exact ⟨path, h.find?_eq_some.2 ⟨mem, declares_iff.2 ⟨d, content, name⟩⟩,
      parentIn?_eq_some.2 ⟨nonempty, d, content, rfl⟩⟩

theorem parents_eq (h : Apart host paths) (same : ∀ path, path ∈ other ↔ path ∈ paths) :
    (({} : ClassIndex).addFiles host other).parents = (({} : ClassIndex).addFiles host paths).parents := by
  refine Dict.ext_get? fun c => ?_
  rw [(addFiles_firstCounts host other c).2, (addFiles_firstCounts host paths c).2, h.find?_eq same]

theorem reordered (h : Apart host paths) (order : LookUp → Dict.Listing String) :
    Apart (host.reordered order) paths := by
  intro p inP q inQ d e declared declared' eq
  have declares {path : String} {d : Declared} (content : (host.reordered order).declared? path = some d) :
      ClassIndex.declares host d.className path := by
    rw [← declares_reordered order]
    exact declares_iff.2 ⟨d, content, rfl⟩
  exact h.unique d.className p inP q inQ (declares declared) (eq ▸ declares declared')

end Apart

/-- Parents that are the same in all orders are not ambiguous. -/
theorem settledParent_of_agree {host : Host} {paths other : List String}
    (same : ∀ path, path ∈ other ↔ path ∈ paths) (apart : Apart host other)
    (agree : ∀ order c, (({} : ClassIndex).addFiles (host.reordered order) other).parentOf? c =
      (({} : ClassIndex).addFiles host paths).parentOf? c) :
    ∀ path ∈ paths, host.SettledParent path := by
  intro path mem decl found ambiguous
  have extending : decl.parent ≠ "" := fun none => ambiguous.short.nonempty (by rw [none]; rfl)
  let source := (host.readOrEmpty path).toList
  have named (listing : Dict.Listing String) :
      (({} : ClassIndex).addFiles host paths).parentOf? (Php.classNameOf source) =
        some (Php.parentNameOf listing source decl) := by
    have declared : (host.reordered fun _ => listing).declared? path =
        some ⟨Php.classNameOf source, Php.parentNameOf listing source decl⟩ := by
      rw [Host.declared?_eq, Host.readOrEmpty_reordered, found, Option.map_some, if_neg extending]
      rfl
    rw [← agree fun _ => listing, (apart.reordered _).parentOf?_eq_some]
    exact ⟨(Php.isFull_parentNameOf found extending listing).ne_empty, path, (same path).2 mem, _,
      declared, (Php.isFull_classNameOf found).bare_eq.symm, rfl⟩
  obtain ⟨full, full', means, means', ne⟩ :=
    ambiguous.two_meanings (Php.namespaceOf source)
  obtain ⟨listing, rfl⟩ := means.exists_listing
  obtain ⟨listing', rfl⟩ := means'.exists_listing
  exact ne (Option.some.inj ((named listing).symm.trans (named listing')))

/-- **The order of indexing cannot be seen**, unless that of imports can. Where no two files declare the
same class, two lists of the same files, in any order and with any repetitions, give indexes in which a
class is in the one file that declares it and has the parent that this file names. They answer every
question alike if no name that the files look up is ambiguous, or if imports are gone through in the
same orders. In all orders they agree on parents just if no parent is ambiguous. -/
theorem addFiles_order_irrelevant (host : Host) (paths other : List String)
    (same : ∀ path, path ∈ other ↔ path ∈ paths) (apart : Apart host paths) :
    let index := ({} : ClassIndex).addFiles host paths
    let again (order : LookUp → Dict.Listing String) :=
      ({} : ClassIndex).addFiles (host.reordered order) other
    (∀ order orders orders',
      (∀ path ∈ paths, host.SettledHead path) ∨ order = host.order ∧ orders = orders' →
        SameAnswers host orders orders' index (again order)) ∧
    ((∀ order c, (again order).parentOf? c = index.parentOf? c) ↔
      ∀ path ∈ paths, host.SettledParent path) ∧
    (∀ order c, (again order).fileOf? c = index.fileOf? c ∧ (again order).size = index.size) ∧
    (∀ c path, index.fileOf? c = some path ↔ path ∈ paths ∧
      ∃ d, host.declared? path = some d ∧ d.className = ClassName.bare c) ∧
    ∀ c p, index.parentOf? c = some p ↔ p ≠ "" ∧ ∃ path ∈ paths,
      ∃ d, host.declared? path = some d ∧ d.className = ClassName.bare c ∧
        d.parent = p := by
  intro index again
  have apartOther : Apart host other := fun p inP q inQ => apart p ((same p).1 inP) q ((same q).1 inQ)
  have files (order) : (again order).files = index.files := apart.files_eq same order
  have unmoved {order} (settled : (∀ path ∈ paths, host.SettledParent path) ∨ order = host.order) :
      again order = ({} : ClassIndex).addFiles host other := by
    rcases settled with settled | rfl
    · exact addFiles_reordered (fun path mem => settled path ((same path).1 mem)) order {}
    · rfl
  refine ⟨fun order orders orders' known => ?_, ⟨settledParent_of_agree same apartOther, ?_⟩, ?_, ?_,
    fun c p => apart.parentOf?_eq_some⟩
  · have eq := unmoved (known.imp (fun heads path mem => (heads path mem).parent) And.left)
    have parents : (again order).parents = index.parents := by rw [eq, apart.parents_eq same]
    have listed := (Consistent.empty.run [.files host paths]).1.listed_perm
      (Consistent.empty.run [.files (host.reordered order) other]).1 parents.symm
    refine sameAnswers_of_eq (files order).symm parents.symm listed fun c => ?_
    rcases known with heads | ⟨_, rfl⟩
    · exact interfaces?_eq_of_settled (fun _ path found => heads path (mem_of_get?_files found)) _ _ c
    · rfl
  · intro settled order c
    simp only [parentOf?, unmoved (.inl settled)]
    rw [apart.parents_eq same]
  · exact fun order c => ⟨by simp only [fileOf?, files], by simp only [size, files]⟩
  · intro c path
    rw [fileOf?, (addFiles_firstCounts host paths _).1, apart.find?_eq_some, declares_iff]

/-- A class and the one that it extends, each in a file of its own. -/
def familyTree : List (String × Entry) := [
  ("Base.php", .text "<?php\nnamespace Shop;\nclass Base implements \\Shop\\Api\\Thing \x7b\x7d\n"),
  ("Child.php", .text "<?php\nnamespace Shop;\nfinal class Child extends Base \x7b\x7d\n")]

def familyHost : Host where
  tree := .dir [("srv", .dir familyTree)]
  cwd := "/"
  env := {}

theorem family_declared :
    familyHost.declared? "/srv/Base.php" = some ⟨"Shop\\Base", ""⟩ ∧
    familyHost.declared? "/srv/Child.php" = some ⟨"Shop\\Child", "Shop\\Base"⟩ ∧
    familyHost.SettledHead "/srv/Base.php" ∧ familyHost.SettledHead "/srv/Child.php" := by
  have placed : familyHost.linkAt "/srv" = .ok (.dir familyTree) :=
    @Host.linkAt_names familyHost ["srv"] familyTree rfl (by decide) (by decide) (by decide) (by decide)
  have proper : Entry.ProperIn familyTree := by
    simp only [familyTree, Entry.ProperIn, Entry.Proper, Entry.text]
    decide
  have base := @Host.readOrEmpty_below familyHost "/srv" _ familyTree ["Base.php"] placed proper rfl
    (by decide) (by decide)
  have child := @Host.readOrEmpty_below familyHost "/srv" _ familyTree ["Child.php"] placed proper rfl
    (by decide) (by decide)
  simp only [show "/srv/Base.php" = Path.below "/srv" ["Base.php"] from rfl,
    show "/srv/Child.php" = Path.below "/srv" ["Child.php"] from rfl, Host.declared?, Host.SettledHead,
    base, child]
  exact ⟨by decide +kernel, by decide +kernel, (Php.settled_of_distinct (by decide +kernel)).head,
    (Php.settled_of_distinct (by decide +kernel)).head⟩

theorem addFiles_order_irrelevant_family :
    (∀ path, path ∈ ["/srv/Child.php", "/srv/Base.php", "/srv/Child.php"] ↔
      path ∈ ["/srv/Base.php", "/srv/Child.php"]) ∧
    Apart familyHost ["/srv/Base.php", "/srv/Child.php"] ∧
    (∀ path ∈ ["/srv/Base.php", "/srv/Child.php"], familyHost.SettledHead path) ∧
    let index := ({} : ClassIndex).addFiles familyHost ["/srv/Base.php", "/srv/Child.php"]
    (∀ order orders orders', SameAnswers familyHost orders orders' index
      (({} : ClassIndex).addFiles (familyHost.reordered order)
        ["/srv/Child.php", "/srv/Base.php", "/srv/Child.php"])) ∧
    index.fileOf? "\\Shop\\Base" = some "/srv/Base.php" ∧
    index.parentOf? "\\Shop\\Child" = some "Shop\\Base" := by
  obtain ⟨base, child, settledBase, settledChild⟩ := family_declared
  have same (path : String) : path ∈ ["/srv/Child.php", "/srv/Base.php", "/srv/Child.php"] ↔
      path ∈ ["/srv/Base.php", "/srv/Child.php"] := by
    simp only [List.mem_cons, List.not_mem_nil, or_false]
    tauto
  have apart : Apart familyHost ["/srv/Base.php", "/srv/Child.php"] := by
    simp [Apart, base, child]
  have settled : ∀ path ∈ ["/srv/Base.php", "/srv/Child.php"], familyHost.SettledHead path := by
    simp [settledBase, settledChild]
  obtain ⟨answers, _, _, file, parent⟩ := addFiles_order_irrelevant familyHost _ _ same apart
  refine ⟨same, apart, settled, fun order orders orders' => answers order orders orders' (.inl settled),
    ?_, ?_⟩
  · exact (file _ _).2 ⟨List.mem_cons_self, _, base, by decide⟩
  · have mem : "/srv/Child.php" ∈ ["/srv/Base.php", "/srv/Child.php"] := by decide
    exact (parent _ _).2 ⟨by decide, _, mem, _, child, by decide, rfl⟩

end ShopLint.ClassIndex
