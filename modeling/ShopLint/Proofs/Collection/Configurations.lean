import ShopLint.Proofs.Collection.Eligibility

/-!
Configurations among the collected files. Their type is a name that can also be asked for as an
extension, so two kinds of files can come under it: configurations, and files with just that extension.
The type is pure as long as no file of the second kind is taken.
-/

namespace ShopLint

/-- The path of a configuration: an XML file whose name ends in `di.xml`. -/
def Path.IsConfiguration (path : String) : Prop :=
  extension path = FileType.xml ∧ Text.endsWith (base path) "di.xml"

/-- Configurations do not have the name of their type as extension. -/
theorem Path.IsConfiguration.extension_ne {path : String} (h : IsConfiguration path) :
    extension path ≠ FileType.di := by
  rw [h.1]
  decide

/-- Two kinds of paths have the type of configurations. -/
theorem FileType.ofPath_eq_di (path : String) :
    FileType.ofPath path = di ↔ Path.IsConfiguration path ∨ Path.extension path = di := by
  rw [FileType.ofPath]
  split
  next isConfiguration => exact ⟨fun _ => .inl isConfiguration, fun _ => rfl⟩
  next other => exact ⟨.inr, fun h => h.resolve_left other⟩

/-- The files that the walk comes to. -/
def candidates (host : Host) (s : Selection) : List String := (candidates? host s).getD []

/-- Under a type stand the candidates of that type. -/
theorem mem_files_collect (host : Host) (s : Selection) (t path : String) :
    path ∈ (collect host s).classification.files t ↔
      path ∈ candidates host s ∧ s.typeOf? path = some t := by
  simp only [collect, candidates]
  cases candidates? host s with
  | none => simp [Selection.files_emptyClassification]
  | some paths => simp [Selection.files_classify]

/-- **What stands among the configurations.** A path that the walk comes to and the options admit
stands under their type just if it is that of a configuration or has the name of the type as its
extension. So there are only configurations if that extension is not taken, and otherwise just if no
file with it is found. -/
theorem collect_configurations (host : Host) (options : ScanOptions) (s : Selection)
    (accepted : Selection.ofOptions host options = .ok s) :
    let found := (collect host s).classification.files FileType.di
    (¬options.AllowsExtension FileType.di → ∀ path ∈ found, Path.IsConfiguration path) ∧
    ((∀ path ∈ found, Path.IsConfiguration path) ↔
      ∀ path ∈ candidates host s, options.Admits path → Path.extension path ≠ FileType.di) ∧
    ∀ path, path ∈ found ↔ path ∈ candidates host s ∧ options.Admits path ∧
      (Path.IsConfiguration path ∨ Path.extension path = FileType.di) := by
  intro found
  have mem (path : String) : path ∈ found ↔ path ∈ candidates host s ∧ options.Admits path ∧
      (Path.IsConfiguration path ∨ Path.extension path = FileType.di) := by
    rw [mem_files_collect, Selection.typeOf?_eq_some accepted, eq_comm (a := FileType.di),
      FileType.ofPath_eq_di]
  refine ⟨fun refused path inFound => ?_, ⟨fun only path candidate admitted isDi => ?_, ?_⟩, mem⟩
  · obtain ⟨_, admitted, isConfiguration | isDi⟩ := (mem path).1 inFound
    · exact isConfiguration
    · exact absurd (isDi ▸ admitted.extension) refused
  · have inFound := (mem path).2 ⟨candidate, admitted, .inr isDi⟩
    exact (only path inFound).extension_ne isDi
  · intro none path inFound
    obtain ⟨candidate, admitted, kind⟩ := (mem path).1 inFound
    exact kind.resolve_right (none path candidate admitted)

/-- A configuration, and notes whose extension is the name of its type. -/
def notesTree : List (String × Entry) := [
  ("etc", .dir [("di.xml", .text "")]),
  ("notes.di", .text "")]

def notesHost : Host where
  tree := .dir [("srv", .dir notesTree)]
  cwd := "/"
  env := {}

/-- The selection that starts from the notes' directory and takes some extensions. -/
def notesSelection (extensions : List String) : Selection where
  root := "/srv"
  extensions := extensions
  excludeDirs := []
  excludeFiles := []
  excludePaths := []
  fixableOnly := false

theorem candidates_notes (extensions : List String) :
    candidates notesHost (notesSelection extensions) = ["/srv/etc/di.xml", "/srv/notes.di"] := by
  have placed : notesHost.linkAt "/srv" = .ok (.dir notesTree) :=
    @Host.linkAt_names notesHost ["srv"] notesTree rfl (by decide) (by decide) (by decide) (by decide)
  have root : (notesSelection extensions).root = "/srv" := rfl
  simp only [candidates, candidates?, root, Host.entryAt_of_linkAt placed, placed]
  rfl

/-- With the default extensions only the configuration is found; once the extension of the notes is
asked for, they stand beside it. -/
theorem collect_configurations_notes :
    (Selection.ofOptions notesHost { root := "/srv" } =
        .ok (notesSelection ["js", "php", "phtml", "xml"]) ∧
      ∀ path ∈ (collect notesHost (notesSelection ["js", "php", "phtml", "xml"])).classification.files
        FileType.di, Path.IsConfiguration path) ∧
    Selection.ofOptions notesHost { root := "/srv", extensions := [".DI", "xml"] } =
      .ok (notesSelection ["di", "xml"]) ∧
    let found := (collect notesHost (notesSelection ["di", "xml"])).classification.files FileType.di
    "/srv/etc/di.xml" ∈ found ∧ "/srv/notes.di" ∈ found ∧
      ¬∀ path ∈ found, Path.IsConfiguration path := by
  have byDefault : Selection.ofOptions notesHost { root := "/srv" } =
      .ok (notesSelection ["js", "php", "phtml", "xml"]) := by rfl
  have asked : Selection.ofOptions notesHost { root := "/srv", extensions := [".DI", "xml"] } =
      .ok (notesSelection ["di", "xml"]) := by rfl
  obtain ⟨only, _, _⟩ := collect_configurations notesHost _ _ byDefault
  obtain ⟨_, onlyIff, mem⟩ := collect_configurations notesHost _ _ asked
  have notes : ScanOptions.Admits { root := "/srv", extensions := [".DI", "xml"] } "/srv/notes.di" :=
    ⟨by decide +kernel, List.not_mem_nil, List.not_mem_nil⟩
  have config : ScanOptions.Admits { root := "/srv", extensions := [".DI", "xml"] } "/srv/etc/di.xml" :=
    ⟨by decide +kernel, List.not_mem_nil, List.not_mem_nil⟩
  have walked : "/srv/notes.di" ∈ candidates notesHost (notesSelection ["di", "xml"]) := by
    rw [candidates_notes]
    decide
  have extension : Path.extension "/srv/notes.di" = FileType.di := by decide +kernel
  refine ⟨⟨byDefault, only (by decide +kernel)⟩, asked, (mem _).2 ⟨?_, config, .inl ?_⟩,
    (mem _).2 ⟨walked, notes, .inr extension⟩, fun all => ?_⟩
  · rw [candidates_notes]
    decide
  · exact ⟨by decide +kernel, by decide +kernel⟩
  · exact onlyIff.1 all _ walked notes extension

end ShopLint
