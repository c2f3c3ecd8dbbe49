import ShopLint.Proofs.Isolation
import ShopLint.Proofs.Placement

/-!
What rules find in files that correspond. Two lists of paths may belong to two hosts; when paths that
correspond have the same content and look alike to the rules, so do the occurrences that are found. Both
hosts go through imports in the order of their names here; other orders matter only where names are
ambiguous.
-/

namespace ShopLint

open Relator

/-- The paths get the same answers from all that rules ask about where a file stands, setup scripts
apart. -/
structure Path.Alike (p q : String) : Prop where
  plugin : Text.contains p "/Plugin/" = Text.contains q "/Plugin/"
  layout : Text.contains p "/layout/" = Text.contains q "/layout/"
  block : Module.isBlockFile p = Module.isBlockFile q
  area : Area.ofPath p = Area.ofPath q
  module : Module.nameOf? p = Module.nameOf? q

/-- A correspondence between the paths of two hosts, under which files have the same content and the
same name and look alike. -/
structure Relocates (host₁ host₂ : Host) (R : String → String → Prop) : Prop where
  sorted₁ : host₁.order = fun _ => .sorted
  sorted₂ : host₂.order = fun _ => .sorted
  unique : BiUnique R
  bytes {p q : String} : R p q → (host₁.bytes p).toOption = (host₂.bytes q).toOption
  base {p q : String} : R p q → Path.base p = Path.base q
  minified {p q : String} : R p q → Text.endsWith p ".min.js" = Text.endsWith q ".min.js"
  setup {p q : String} : R p q → Module.isSetupPath p = Module.isSetupPath q
  alike {p q : String} : R p q → Path.Alike p q

/-- The same occurrence in a file that corresponds: a message that names the file names the other. -/
structure Occurrence.Moved (R : String → String → Prop) (a b : Occurrence) : Prop where
  file : R a.file b.file
  startLine : a.startLine = b.startLine
  endLine : a.endLine = b.endLine
  severity : a.severity = b.severity
  message : a.message = b.message ∨ ∃ before after,
    a.message = before ++ a.file ++ after ∧ b.message = before ++ b.file ++ after

def SourceFile.Moved (R : String → String → Prop) (a b : SourceFile) : Prop :=
  R a.path b.path ∧ a.text = b.text

section

variable {α β γ : Type} {S : β → γ → Prop} {l : List α}

theorem forall₂_map_map {f : α → β} {g : α → γ} (h : ∀ x ∈ l, S (f x) (g x)) :
    List.Forall₂ S (l.map f) (l.map g) :=
  List.forall₂_map_left_iff.2 (List.forall₂_map_right_iff.2 (List.forall₂_same.2 h))

theorem forall₂_flatMap_flatMap {f : α → List β} {g : α → List γ}
    (h : ∀ x ∈ l, List.Forall₂ S (f x) (g x)) : List.Forall₂ S (l.flatMap f) (l.flatMap g) :=
  List.rel_flatten (forall₂_map_map h)

theorem forall₂_filterMap_filterMap {f : α → Option β} {g : α → Option γ}
    (h : ∀ x, Option.Rel S (f x) (g x)) : List.Forall₂ S (l.filterMap f) (l.filterMap g) :=
  List.rel_filterMap (fun _ _ eq => eq ▸ h _) (List.forall₂_same.2 fun x _ => Eq.refl x)

end

theorem forall₂_partner {α β : Type} {S : α → β → Prop} {as : List α} {bs : List β}
    (h : List.Forall₂ S as bs) {a : α} (mem : a ∈ as) : ∃ b ∈ bs, S a b := by
  induction h with
  | nil => cases mem
  | cons first _ ih =>
    rcases List.mem_cons.1 mem with rfl | later
    · exact ⟨_, List.mem_cons_self, first⟩
    · obtain ⟨b, inRest, rel⟩ := ih later
      exact ⟨b, List.mem_cons_of_mem _ inRest, rel⟩

theorem forall₂_mapIdx {α β γ δ : Type} {S : α → β → Prop} {T : γ → δ → Prop} {as : List α} {bs : List β}
    (h : List.Forall₂ S as bs) {f : Nat → α → γ} {g : Nat → β → δ}
    (each : ∀ n a b, S a b → T (f n a) (g n b)) : List.Forall₂ T (as.mapIdx f) (bs.mapIdx g) := by
  induction h generalizing f g with
  | nil => exact .nil
  | cons first _ ih =>
    rw [List.mapIdx_cons, List.mapIdx_cons]
    exact .cons (each 0 _ _ first) (ih fun n => each (n + 1))

variable {host₁ host₂ : Host} {R : String → String → Prop}

theorem occurrenceAt_moved {p q : String} (h : R p q) (line : Nat) (severity : Severity)
    (message : String) :
    (occurrenceAt p line severity message).Moved R (occurrenceAt q line severity message) :=
  ⟨h, rfl, rfl, rfl, .inl rfl⟩

theorem toOption_map {ε α β : Type} (f : α → β) (outcome : Except ε α) :
    (outcome.map f).toOption = outcome.toOption.map f := by
  cases outcome <;> rfl

namespace Relocates

variable (h : Relocates host₁ host₂ R)

include h

theorem read {p q : String} (pq : R p q) : (host₁.read p).toOption = (host₂.read q).toOption := by
  simp only [Host.read, toOption_map, h.bytes pq]

theorem readDocument {p q : String} (pq : R p q) :
    (host₁.readDocument p).toOption = (host₂.readDocument q).toOption := by
  simp only [Host.readDocument, toOption_map, h.bytes pq]

theorem readOrEmpty {p q : String} (pq : R p q) : host₁.readOrEmpty p = host₂.readOrEmpty q := by
  have read := h.read pq
  simp only [Host.readOrEmpty]
  generalize host₁.read p = first, host₂.read q = second at read
  cases first <;> cases second <;> simp_all [Except.toOption]

theorem declared? {p q : String} (pq : R p q) : host₁.declared? p = host₂.declared? q := by
  simp only [Host.declared?, h.sorted₁, h.sorted₂, h.readOrEmpty pq]

end Relocates

section

variable {ps qs : List String} (paths : List.Forall₂ R ps qs)

include paths

/-- Files chosen by a test that corresponding paths both pass or both fail. -/
theorem forall₂_filter {test : String → Bool} (same : ∀ p q, R p q → test p = test q) :
    List.Forall₂ R (ps.filter test) (qs.filter test) :=
  List.rel_filter (fun p q pq => iff_of_eq (congrArg (· = true) (same p q pq))) paths

theorem forall₂_loadWith {read₁ read₂ : String → Except FileError String}
    (read : ∀ p q, R p q → (read₁ p).toOption = (read₂ q).toOption) :
    List.Forall₂ (SourceFile.Moved R) (loadWith read₁ ps) (loadWith read₂ qs) := by
  refine List.rel_filterMap (fun p q pq => ?_) paths
  have content := read p q pq
  generalize read₁ p = first, read₂ q = second at content
  cases first <;> cases second <;> simp only [Except.toOption, reduceCtorEq, Option.some.injEq] at content
  case error.error => exact .none
  case ok.ok =>
    subst content
    dsimp only
    split
    · exact .none
    · exact .some ⟨pq, rfl⟩

theorem Relocates.loadAll (h : Relocates host₁ host₂ R) :
    List.Forall₂ (SourceFile.Moved R) (loadAll host₁ ps) (loadAll host₂ qs) :=
  forall₂_loadWith paths fun _ _ => h.read

theorem Relocates.loadDocuments (h : Relocates host₁ host₂ R) :
    List.Forall₂ (SourceFile.Moved R) (loadDocuments host₁ ps) (loadDocuments host₂ qs) :=
  forall₂_loadWith paths fun _ _ => h.readDocument

end

/-! What each rule finds in corresponding files -/

theorem AroundPlugin.ofLine_moved {a b : SourceFile} (h : a.Moved R b) (p : Nat × List Char) :
    Option.Rel (Occurrence.Moved R) (ofLine a p) (ofLine b p) := by
  obtain ⟨path, text⟩ := a
  obtain ⟨path', text'⟩ := b
  obtain ⟨moved, rfl⟩ := h
  simp only [ofLine]
  cases aroundMethod? p.2 with
  | none => exact .none
  | some method =>
    simp only [Option.bind_some, inspect, SourceFile.lines]
    cases Php.functionAt (linesOf text) p.1 with
    | error e => exact .none
    | ok block =>
      simp only
      split
      · exact .none
      · exact .some ⟨moved, rfl, rfl, rfl, .inl rfl⟩

theorem AreaScope.check_moved {a b : SourceFile} (h : a.Moved R b) (kind className : String) :
    Option.Rel (Occurrence.Moved R) (check a kind className) (check b kind className) := by
  simp only [check, h.2]
  split
  · exact .none
  · cases Area.ofClass? className with
    | none => exact .none
    | some area => exact .some (occurrenceAt_moved h.1 _ _ _)

theorem AreaScope.inspectFile_moved {a b : SourceFile} (h : a.Moved R b) :
    List.Forall₂ (Occurrence.Moved R) (inspectFile a) (inspectFile b) := by
  simp only [inspectFile, h.2]
  split
  · exact .nil
  · exact List.rel_append (forall₂_filterMap_filterMap fun e => check_moved h _ _)
      (forall₂_filterMap_filterMap fun e => check_moved h _ _)

theorem ProxyRequired.inspectFile_moved (relocates : Relocates host₁ host₂ R) (proxied : List Proxied)
    (turn : Nat) {a b : SourceFile} (h : a.Moved R b) :
    List.Forall₂ (Occurrence.Moved R) (inspectFile host₁ proxied turn a)
      (inspectFile host₂ proxied turn b) := by
  simp only [inspectFile, h.2, relocates.sorted₁, relocates.sorted₂]
  split
  · exact .nil
  · split
    · exact .nil
    · exact forall₂_map_map fun p _ => ⟨h.1, rfl, rfl, rfl, .inl rfl⟩

/-- A class without a name is shown by the path of its file. -/
theorem ObjectManager.inspectFile_moved (orders : Nat → Dict.Listing String) {a b : SourceFile}
    (h : a.Moved R b) :
    List.Forall₂ (Occurrence.Moved R) (inspectFile orders a) (inspectFile orders b) := by
  simp only [inspectFile, h.2]
  split
  · exact .nil
  · refine List.rel_append (forall₂_map_map fun line _ => occurrenceAt_moved h.1 _ _ _)
      (forall₂_map_map fun p _ => ⟨h.1, rfl, rfl, rfl, ?_⟩)
    split
    · exact .inr ⟨p.className ++ " is injected into ",
        "; inject the concrete dependency or its factory", rfl, rfl⟩
    · exact .inl rfl

theorem CoreInheritance.inspectFile_moved {i j : ClassIndex} (parents : i.parents = j.parents)
    (children : i.children = j.children) {a b : SourceFile} (h : a.Moved R b) :
    Option.Rel (Occurrence.Moved R) (inspectFile i a) (inspectFile j b) := by
  have sameParent (className : String) : i.parentOf? className = j.parentOf? className := by
    simp only [ClassIndex.parentOf?, parents]
  have sameChildren (className : String) : i.childrenOf className = j.childrenOf className := by
    simp only [ClassIndex.childrenOf, children]
  simp only [inspectFile, h.2, sameParent, sameChildren]
  cases Php.classOf b.text with
  | none => exact .none
  | some decl =>
    simp only [Option.bind_eq_bind, Option.bind_some]
    split
    · exact .none
    · cases j.parentOf? (Php.classNameOf b.text) with
      | none => exact .none
      | some parent =>
        simp only [Option.bind_some]
        split
        · exact .none
        · exact .some (occurrenceAt_moved h.1 _ _ _)

theorem DeprecatedJquery.inspectFile_moved {a b : SourceFile} (h : a.Moved R b) :
    List.Forall₂ (Occurrence.Moved R) (inspectFile a) (inspectFile b) := by
  simp only [inspectFile, SourceFile.lines, h.2]
  exact forall₂_flatMap_flatMap fun _ _ => forall₂_map_map fun _ _ => occurrenceAt_moved h.1 _ _ _

theorem LayoutCache.inspectFile_moved (relocates : Relocates host₁ host₂ R) {a b : SourceFile}
    (h : a.Moved R b) : List.Forall₂ (Occurrence.Moved R) (inspectFile a) (inspectFile b) := by
  simp only [inspectFile, disabledLines, SourceFile.lines, h.2, relocates.base h.1]
  split
  · exact .nil
  · exact forall₂_map_map fun _ _ => occurrenceAt_moved h.1 _ _ _

theorem TemplateOutput.inspectFile_moved {a b : SourceFile} (h : a.Moved R b) :
    List.Forall₂ (Occurrence.Moved R) (inspectFile a) (inspectFile b) := by
  simp only [inspectFile, SourceFile.lines, h.2]
  exact forall₂_flatMap_flatMap fun _ _ => forall₂_map_map fun _ _ => occurrenceAt_moved h.1 _ _ _

theorem RawSql.inspectFile_moved (relocates : Relocates host₁ host₂ R) {a b : SourceFile}
    (h : a.Moved R b) : List.Forall₂ (Occurrence.Moved R) (inspectFile a) (inspectFile b) := by
  simp only [inspectFile, SourceFile.lines, h.2, (relocates.alike h.1).module]
  exact forall₂_map_map fun _ _ => occurrenceAt_moved h.1 _ _ _

/-! The class index -/

/-- Indexes of corresponding files. -/
structure ClassIndex.Moved (R : String → String → Prop) (i j : ClassIndex) : Prop where
  processed : List.Forall₂ R i.processed j.processed
  files : Dict.Rel R i.files j.files
  parents : i.parents = j.parents
  children : i.children = j.children

namespace ClassIndex

theorem Moved.empty : Moved R {} {} := ⟨.nil, Dict.Rel.empty R, rfl, rfl⟩

theorem Moved.contains {i j : ClassIndex} (h : Moved R i j) (className : String) :
    i.files.contains className = j.files.contains className := by
  have files := h.files.get? className
  simp only [Dict.contains]
  generalize i.files.get? className = p, j.files.get? className = q at files
  cases files with
  | none => rfl
  | some _ => rfl

theorem Moved.declare {i j : ClassIndex} (h : Moved R i j) {p q : String} (pq : R p q) (d : Declared) :
    Moved R (i.declare p d) (j.declare q d) := by
  have files : Dict.Rel R (i.files.insert d.className p) (j.files.insert d.className q) :=
    h.files.alter _ pq fun _ _ _ => pq
  simp only [ClassIndex.declare, h.contains]
  split
  · exact h
  · split
    · exact ⟨h.processed, files, h.parents, h.children⟩
    · refine ⟨h.processed, files, ?_, ?_⟩
      · simp only [h.parents]
      · simp only [h.children]

theorem Moved.addFile (relocates : Relocates host₁ host₂ R) {i j : ClassIndex} (h : Moved R i j)
    {p q : String} (pq : R p q) : Moved R (i.addFile host₁ p) (j.addFile host₂ q) := by
  -- a path corresponds to one other only, so both files are new or neither is
  have known : p ∈ i.processed ↔ q ∈ j.processed := List.rel_mem relocates.unique pq h.processed
  have noted : Moved R { i with processed := p :: i.processed }
      { j with processed := q :: j.processed } :=
    ⟨.cons pq h.processed, h.files, h.parents, h.children⟩
  simp only [ClassIndex.addFile, known, relocates.declared? pq]
  split
  · exact h
  · split
    · exact noted.declare pq _
    · exact noted

theorem Moved.addFiles (relocates : Relocates host₁ host₂ R) {i j : ClassIndex} (h : Moved R i j)
    {ps qs : List String} (paths : List.Forall₂ R ps qs) :
    Moved R (i.addFiles host₁ ps) (j.addFiles host₂ qs) := by
  induction paths generalizing i j with
  | nil => exact h
  | cons pq _ ih => exact ih (h.addFile relocates pq)

theorem Moved.interfaces? (relocates : Relocates host₁ host₂ R) {i j : ClassIndex} (h : Moved R i j)
    (orders : Nat → Dict.Listing String) (className : String) :
    i.interfaces? host₁ orders className = j.interfaces? host₂ orders className := by
  have files := h.files.get? (ClassName.bare className)
  simp only [ClassIndex.interfaces?, fileOf?]
  generalize i.files.get? (ClassName.bare className) = p,
    j.files.get? (ClassName.bare className) = q at files
  cases files with
  | none => rfl
  | some pq => simp only [Option.bind_some, relocates.readOrEmpty pq]

theorem Moved.apiInterface? (relocates : Relocates host₁ host₂ R) {i j : ClassIndex}
    (h : Moved R i j) (orders : String → Nat → Dict.Listing String) (className : String) :
    i.apiInterface? host₁ orders className = j.apiInterface? host₂ orders className := by
  simp only [ClassIndex.apiInterface?, ancestors_congr h.parents, h.interfaces? relocates]

end ClassIndex

theorem RepositoryUse.inspectFile_moved (relocates : Relocates host₁ host₂ R) {i j : ClassIndex}
    (index : i.Moved R j) (turn : Nat) {a b : SourceFile} (h : a.Moved R b) :
    List.Forall₂ (Occurrence.Moved R) (inspectFile host₁ i turn a) (inspectFile host₂ j turn b) := by
  have sameSeverity (className dependency : String) :
      severity a.path className dependency = severity b.path className dependency := by
    simp only [severity, (relocates.alike h.1).block]
  have sameAdvice (orders : String → Nat → Dict.Listing String) (dependency : String) :
      advice host₁ orders i dependency = advice host₂ orders j dependency := by
    unfold advice
    simp only [index.apiInterface? relocates]
  simp only [inspectFile, h.2, sameSeverity, sameAdvice, relocates.sorted₁, relocates.sorted₂]
  split
  · exact .nil
  · split
    · exact .nil
    · refine forall₂_mapIdx (S := Eq) (List.forall₂_same.2 fun _ _ => rfl) fun _ _ _ same => ?_
      subst same
      exact occurrenceAt_moved h.1 _ _ _

/-! From files to rules -/

/-- Corresponding files under each type. -/
def Classification.Moved (R : String → String → Prop) (a b : Classification) : Prop :=
  Dict.Rel (List.Forall₂ R) a b

theorem Classification.Moved.files {a b : Classification} (h : a.Moved R b) (fileType : String) :
    List.Forall₂ R (a.files fileType) (b.files fileType) := by
  have found := Dict.Rel.get? h fileType
  simp only [Classification.files]
  generalize a.get? fileType = ps, b.get? fileType = qs at found
  cases found with
  | none => exact .nil
  | some paths => exact paths

theorem Classification.Moved.has {a b : Classification} (h : a.Moved R b) (fileType : String) :
    a.has fileType = b.has fileType := by
  have paths := h.files fileType
  simp only [Classification.has]
  generalize a.files fileType = ps, b.files fileType = qs at paths
  cases paths with
  | nil => rfl
  | cons _ _ => rfl

theorem ProxyRequired.proxiedIn_eq (relocates : Relocates host₁ host₂ R) {p q : String} (pq : R p q) :
    proxiedIn host₁ p = proxiedIn host₂ q := by
  have read := relocates.readDocument pq
  simp only [proxiedIn]
  generalize host₁.readDocument p = first, host₂.readDocument q = second at read
  cases first <;> cases second <;> simp_all [Except.toOption]

theorem ProxyRequired.proxied_eq (relocates : Relocates host₁ host₂ R) {ps qs : List String}
    (paths : List.Forall₂ R ps qs) : ps.flatMap (proxiedIn host₁) = qs.flatMap (proxiedIn host₂) := by
  induction paths with
  | nil => rfl
  | cons pq _ ih => rw [List.flatMap_cons, List.flatMap_cons, proxiedIn_eq relocates pq, ih]

theorem forall₂_flatMap {as bs : List SourceFile} (h : List.Forall₂ (SourceFile.Moved R) as bs)
    {f g : SourceFile → List Occurrence}
    (found : ∀ {a b}, a.Moved R b → List.Forall₂ (Occurrence.Moved R) (f a) (g b)) :
    List.Forall₂ (Occurrence.Moved R) (as.flatMap f) (bs.flatMap g) :=
  List.rel_flatten (List.rel_map (fun _ _ moved => found moved) h)

theorem forall₂_inspectEach {as bs : List SourceFile} (h : List.Forall₂ (SourceFile.Moved R) as bs)
    {f g : Nat → SourceFile → List Occurrence}
    (found : ∀ turn {a b}, a.Moved R b → List.Forall₂ (Occurrence.Moved R) (f turn a) (g turn b)) :
    List.Forall₂ (Occurrence.Moved R) (inspectEach f as) (inspectEach g bs) :=
  List.rel_flatten (forall₂_mapIdx h fun turn _ _ moved => found turn moved)

/-- A bundled rule finds the same in corresponding files. -/
theorem Registry.bundled_moved (relocates : Relocates host₁ host₂ R) {a b : Classification}
    (h : a.Moved R b) :
    ∀ r ∈ bundled, List.Forall₂ (Occurrence.Moved R) (r.alone host₁ a) (r.alone host₂ b) := by
  have index : (sourceIndex host₁ a).Moved R (sourceIndex host₂ b) :=
    ClassIndex.Moved.empty.addFiles relocates (h.files _)
  have sources := h.files FileType.php
  have outsideSetup := relocates.loadAll
    (forall₂_filter sources fun _ _ pq => congrArg not (relocates.setup pq))
  intro r mem
  simp only [bundled, List.mem_cons, List.not_mem_nil, or_false] at mem
  rcases mem with rfl | rfl | rfl | rfl | rfl | rfl | rfl | rfl | rfl | rfl
  · rw [AroundPlugin.alone_eq, AroundPlugin.alone_eq]
    have plugins := relocates.loadAll (forall₂_filter sources fun _ _ pq => (relocates.alike pq).plugin)
    refine forall₂_flatMap plugins ?_
    intro a b moved
    simp only [SourceFile.lines, moved.2]
    exact forall₂_filterMap_filterMap (AroundPlugin.ofLine_moved moved)
  · refine forall₂_flatMap (relocates.loadDocuments (forall₂_filter (h.files _) fun _ _ pq => ?_))
      AreaScope.inspectFile_moved
    simp only [(relocates.alike pq).area]
  · show List.Forall₂ _ (ProxyRequired.find host₁ a) (ProxyRequired.find host₂ b)
    simp only [ProxyRequired.find, ProxyRequired.proxied_eq relocates (h.files FileType.di)]
    exact forall₂_inspectEach (relocates.loadAll sources) (ProxyRequired.inspectFile_moved relocates _)
  · show List.Forall₂ _ (ObjectManager.find host₁ a) (ObjectManager.find host₂ b)
    simp only [ObjectManager.find, relocates.sorted₁, relocates.sorted₂]
    exact forall₂_inspectEach outsideSetup fun _ {_ _} => ObjectManager.inspectFile_moved _
  · exact List.rel_filterMap
      (fun _ _ moved => CoreInheritance.inspectFile_moved index.parents index.children moved)
      (relocates.loadAll sources)
  · have written := relocates.loadAll
      (forall₂_filter (h.files FileType.js) fun _ _ pq => congrArg not (relocates.minified pq))
    exact forall₂_flatMap written DeprecatedJquery.inspectFile_moved
  · have layouts := relocates.loadDocuments
      (forall₂_filter (h.files FileType.xml) fun _ _ pq => (relocates.alike pq).layout)
    exact forall₂_flatMap layouts (LayoutCache.inspectFile_moved relocates)
  · exact forall₂_flatMap (relocates.loadAll (h.files _)) TemplateOutput.inspectFile_moved
  · exact forall₂_flatMap outsideSetup (RawSql.inspectFile_moved relocates)
  · exact forall₂_inspectEach outsideSetup (RepositoryUse.inspectFile_moved relocates index)

end ShopLint
