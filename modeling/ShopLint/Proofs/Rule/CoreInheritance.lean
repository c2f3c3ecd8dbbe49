import ShopLint.Proofs.ClassIndex.Order
import ShopLint.Proofs.Php.ClassName
import ShopLint.Rule.CoreInheritance

/-!
Whose declaration the rule about core classes goes by. It asks each file whether its class is the
project's own and extends another, but takes the parent from the class index, where the first
declaration of a class counts. So a file is judged by its own declaration as long as the first file
that declares the same class names the same parent.
-/

namespace ShopLint

namespace CoreInheritance

/-- What the rule says of a class on a line of a file. -/
def warning (path : String) (line : Nat) (className parent : String) (others : Nat) : Occurrence :=
  occurrenceAt path line .warning
    (s!"{className} extends core class {parent} ({others} other indexed classes extend it); " ++
      "prefer a plugin or preference")

/-- What the rule asks of a file itself: its first class is the project's own and extends another. `d`
has the full names of both, the parent's as the file's own imports, gone through in the given order, and
its namespace resolve it. -/
structure Inherits (order : Dict.Listing String) (source : List Char) (decl : Php.ClassDecl)
    (d : Declared) : Prop where
  first : Php.classOf source = some decl
  extending : decl.parent ≠ ""
  className : d.className = Php.classNameOf source
  parent : d.parent = Php.parentNameOf order source decl
  notFramework : ¬ClassName.isFramework d.className
  notThirdParty : ¬ClassName.isThirdParty d.className

/-- What the rule asks of a file, as the machine reads it. -/
def InheritsAt (host : Host) (path : String) (decl : Php.ClassDecl) (d : Declared) : Prop :=
  Inherits (host.order (.parent path)) (host.readOrEmpty path).toList decl d

theorem InheritsAt.declared {host : Host} {path : String} {decl : Php.ClassDecl} {d : Declared}
    (h : InheritsAt host path decl d) : host.declared? path = some d := by
  rw [Host.declared?, declaredIn?_eq, h.first, Option.map_some, if_neg h.extending, ← h.className,
    ← h.parent]

/-- The parent that the first of some files to declare a class names. -/
def firstParent? (host : Host) (paths : List String) (className : String) : Option String :=
  (paths.find? (ClassIndex.declares host className)).bind (ClassIndex.parentIn? host)

/-- One file: it is reported just if it inherits and the index has a core class as the parent. -/
theorem inspectFile_eq_some_iff (order : Dict.Listing String) {index : ClassIndex} {src : SourceFile}
    {o : Occurrence} :
    inspectFile index src = some o ↔
      ∃ decl d p, Inherits order src.text decl d ∧ index.parents.get? d.className = some p ∧
        ClassName.isConcreteCore p ∧
        o = warning src.path decl.line d.className p ((index.childrenOf p).length - 1) := by
  simp only [inspectFile, Option.bind_eq_bind, Option.bind_eq_some_iff]
  constructor
  · rintro ⟨decl, first, found⟩
    have full := Php.isFull_classNameOf first
    obtain ⟨d, className, parentName⟩ : ∃ d : Declared, d.className = Php.classNameOf src.text ∧
        d.parent = Php.parentNameOf order src.text decl := ⟨⟨_, _⟩, rfl, rfl⟩
    rw [← className] at found full
    split at found
    · cases found
    next taken =>
      simp only [Bool.or_eq_true, decide_eq_true_eq, not_or] at taken
      obtain ⟨⟨extending, notFramework⟩, notThirdParty⟩ := taken
      obtain ⟨p, parent, found⟩ := Option.bind_eq_some_iff.1 found
      rw [ClassIndex.parentOf?, full.bare_eq] at parent
      split at found
      · cases found
      next core =>
        have isCore : ClassName.isConcreteCore p := by simpa using core
        have inherits : Inherits order src.text decl d :=
          ⟨first, extending, className, parentName, notFramework, notThirdParty⟩
        exact ⟨decl, d, p, inherits, parent, isCore, (Option.some.inj found).symm⟩
  · rintro ⟨decl, d, p, inherits, parent, core, rfl⟩
    have full := Php.isFull_classNameOf inherits.first
    refine ⟨decl, inherits.first, ?_⟩
    rw [← inherits.className] at full ⊢
    rw [if_neg (by simp [inherits.extending, inherits.notFramework, inherits.notThirdParty]),
      ClassIndex.parentOf?, full.bare_eq, parent, Option.bind_some, if_neg (by simp [core])]
    rfl

/-- What the rule finds with an index: the files that inherit, where the index, with these files in it,
has a core class as the parent. -/
theorem mem_run {host : Host} {files : Classification} {index : ClassIndex} {o : Occurrence} :
    let filled := (run host files index).1
    o ∈ (run host files index).2 ↔
      ∃ path ∈ files.files FileType.php, ∃ decl d p,
        InheritsAt host path decl d ∧
        filled.parents.get? d.className = some p ∧ ClassName.isConcreteCore p ∧
        o = warning path decl.line d.className p ((filled.childrenOf p).length - 1) := by
  simp only [run, List.mem_filterMap, mem_loadAll_iff]
  constructor
  · rintro ⟨_, ⟨path, mem, _, rfl⟩, found⟩
    exact ⟨path, mem, (inspectFile_eq_some_iff _).1 found⟩
  · rintro ⟨path, mem, decl, d, p, inherits, found⟩
    have nonempty : host.readOrEmpty path ≠ "" := by
      intro empty
      have declared := inherits.declared
      simp [Host.declared?, declaredIn?, empty] at declared
    exact ⟨_, ⟨path, mem, nonempty, rfl⟩,
      (inspectFile_eq_some_iff _).2 ⟨decl, d, p, inherits, found⟩⟩

/-- When only files of one machine have been indexed, the parent is the one that the first of them to
declare the class names. -/
theorem parents_run (host : Host) (files : Classification) (before : List String) (c : String) :
    (run host files (({} : ClassIndex).addFiles host before)).1.parents.get? c =
      firstParent? host (before ++ files.files FileType.php) c := by
  have joined : (run host files (({} : ClassIndex).addFiles host before)).1 =
      ({} : ClassIndex).addFiles host (before ++ files.files FileType.php) := by
    simp only [run, ClassIndex.addFiles, List.foldl_append]
  rw [joined]
  exact (ClassIndex.addFiles_firstCounts host _ c).2

/-- **A file is judged by the first declaration of its class.** Say that the files `before` were
indexed when the rule starts. It reports a source file just if the file's class is the project's own
and extends another, and the first file to declare that class, of those before and the source files,
names a core class as its parent, and says so on the file's line. Where that first file names the same
parent as the file itself, the file is judged by its own declaration: it is reported just if its own
parent is a core class, and with that parent. -/
theorem run_judges_by_first (host : Host) (files : Classification) (before : List String) :
    let paths := files.files FileType.php
    let found := (run host files (({} : ClassIndex).addFiles host before)).2
    let filled := (run host files (({} : ClassIndex).addFiles host before)).1
    let others (p : String) := (filled.childrenOf p).length - 1
    ∀ path ∈ paths,
      (∀ o, o ∈ found ∧ o.file = path ↔
        ∃ decl d p, InheritsAt host path decl d ∧
          firstParent? host (before ++ paths) d.className = some p ∧ ClassName.isConcreteCore p ∧
          o = warning path decl.line d.className p (others p)) ∧
      ((∀ decl d, InheritsAt host path decl d →
          firstParent? host (before ++ paths) d.className = some d.parent) →
        ((∃ o ∈ found, o.file = path) ↔
          ∃ decl d, InheritsAt host path decl d ∧ ClassName.isConcreteCore d.parent) ∧
        ∀ o ∈ found, o.file = path → ∃ decl d, InheritsAt host path decl d ∧
          o = warning path decl.line d.className d.parent (others d.parent)) := by
  intro paths found filled others path mem
  have reports (o : Occurrence) : o ∈ found ∧ o.file = path ↔
      ∃ decl d p, InheritsAt host path decl d ∧
        firstParent? host (before ++ paths) d.className = some p ∧ ClassName.isConcreteCore p ∧
        o = warning path decl.line d.className p (others p) := by
    constructor
    · rintro ⟨inFound, inFile⟩
      obtain ⟨other, _, decl, d, p, inherits, parent, core, rfl⟩ := mem_run.1 inFound
      obtain rfl : other = path := inFile
      rw [parents_run] at parent
      exact ⟨decl, d, p, inherits, parent, core, rfl⟩
    · rintro ⟨decl, d, p, inherits, parent, core, rfl⟩
      refine ⟨mem_run.2 ⟨path, mem, decl, d, p, inherits, ?_, core, rfl⟩, rfl⟩
      rw [parents_run]
      exact parent
  refine ⟨reports, fun same => ⟨⟨?_, ?_⟩, ?_⟩⟩
  · rintro ⟨o, inFound, inFile⟩
    obtain ⟨decl, d, p, inherits, parent, core, _⟩ := (reports o).1 ⟨inFound, inFile⟩
    cases parent.symm.trans (same decl d inherits)
    exact ⟨decl, d, inherits, core⟩
  · rintro ⟨decl, d, inherits, core⟩
    have listed := (reports _).2 ⟨decl, d, d.parent, inherits, same decl d inherits, core, rfl⟩
    exact ⟨_, listed.1, listed.2⟩
  · intro o inFound inFile
    obtain ⟨decl, d, p, inherits, parent, _, eq⟩ := (reports o).1 ⟨inFound, inFile⟩
    cases parent.symm.trans (same decl d inherits)
    exact ⟨decl, d, inherits, eq⟩

/-- Two copies of a class: the first extends a core model, the second a class meant to be extended. -/
def copiesTree : List (String × Entry) := [
  ("a.php", .text "<?php\nnamespace Acme;\nclass Item extends \\Magento\\Catalog\\Model\\Product \x7b\x7d\n"),
  ("b.php", .text "<?php\nnamespace Acme;\nclass Item extends \\Magento\\Framework\\DataObject \x7b\x7d\n")]

def copiesHost : Host where
  tree := .dir [("srv", .dir copiesTree)]
  cwd := "/"
  env := {}

def copiesFiles : Classification := .ofList [(FileType.php, ["/srv/a.php", "/srv/b.php"])]

theorem copies_inherit :
    InheritsAt copiesHost "/srv/a.php"
      ⟨"Item", "\\Magento\\Catalog\\Model\\Product", 3⟩
      ⟨"Acme\\Item", "Magento\\Catalog\\Model\\Product"⟩ ∧
    InheritsAt copiesHost "/srv/b.php"
      ⟨"Item", "\\Magento\\Framework\\DataObject", 3⟩
      ⟨"Acme\\Item", "Magento\\Framework\\DataObject"⟩ := by
  have placed : copiesHost.linkAt "/srv" = .ok (.dir copiesTree) :=
    @Host.linkAt_names copiesHost ["srv"] copiesTree rfl (by decide) (by decide) (by decide) (by decide)
  have proper : Entry.ProperIn copiesTree := by
    simp only [copiesTree, Entry.ProperIn, Entry.Proper, Entry.text]
    decide
  have a := @Host.readOrEmpty_below copiesHost "/srv" _ copiesTree ["a.php"] placed proper rfl
    (by decide) (by decide)
  have b := @Host.readOrEmpty_below copiesHost "/srv" _ copiesTree ["b.php"] placed proper rfl
    (by decide) (by decide)
  constructor
  · rw [InheritsAt, show "/srv/a.php" = Path.below "/srv" ["a.php"] from rfl, a]
    constructor <;> decide +kernel
  · rw [InheritsAt, show "/srv/b.php" = Path.below "/srv" ["b.php"] from rfl, b]
    constructor <;> decide +kernel

/-- The first copy is judged by its own declaration. The second, whose own parent is no core class, is
judged by that of the first. -/
theorem run_judges_by_first_copies :
    let found := (run copiesHost copiesFiles {}).2
    "/srv/a.php" ∈ copiesFiles.files FileType.php ∧ "/srv/b.php" ∈ copiesFiles.files FileType.php ∧
    (∃ o ∈ found, o.file = "/srv/a.php") ∧
    ¬ClassName.isConcreteCore "Magento\\Framework\\DataObject" ∧
    ∃ n, warning "/srv/b.php" 3 "Acme\\Item" "Magento\\Catalog\\Model\\Product" n ∈ found := by
  obtain ⟨inheritsA, inheritsB⟩ := copies_inherit
  have first : firstParent? copiesHost ([] ++ copiesFiles.files FileType.php) "Acme\\Item" =
      some "Magento\\Catalog\\Model\\Product" := by
    have files : [] ++ copiesFiles.files FileType.php = ["/srv/a.php", "/srv/b.php"] := by decide
    have declares : ClassIndex.declares copiesHost "Acme\\Item" "/srv/a.php" :=
      ClassIndex.declares_iff.2 ⟨_, inheritsA.declared, rfl⟩
    rw [firstParent?, files, List.find?_cons_of_pos declares, Option.bind_some,
      ClassIndex.parentIn?_eq_some]
    exact ⟨by decide, _, inheritsA.declared, rfl⟩
  have core : ClassName.isConcreteCore "Magento\\Catalog\\Model\\Product" := by decide +kernel
  have inA : "/srv/a.php" ∈ copiesFiles.files FileType.php := by decide
  have inB : "/srv/b.php" ∈ copiesFiles.files FileType.php := by decide
  obtain ⟨_, own⟩ := run_judges_by_first copiesHost copiesFiles [] "/srv/a.php" inA
  obtain ⟨reports, _⟩ := run_judges_by_first copiesHost copiesFiles [] "/srv/b.php" inB
  have sameA : ∀ decl d, InheritsAt copiesHost "/srv/a.php" decl d →
      firstParent? copiesHost ([] ++ copiesFiles.files FileType.php) d.className = some d.parent := by
    intro decl d inherits
    cases inheritsA.declared.symm.trans inherits.declared
    exact first
  have misjudged := (reports _).2 ⟨_, _, _, inheritsB, first, core, rfl⟩
  exact ⟨inA, inB, (own sameA).1.2 ⟨_, _, inheritsA, core⟩, by decide +kernel, _, misjudged.1⟩

end CoreInheritance

end ShopLint
