import ShopLint.Proofs.Relocation

/-!
Roots that are reached through links. Whether a root is a directory is asked with links followed, but
the walk does not follow a link that it starts at. So links on the way to a root make no difference,
and a root that is itself a link to a directory has nothing in it.
-/

namespace ShopLint

theorem Classification.total_eq_zero_iff (c : Classification) :
    c.total = 0 ↔ ∀ t, c.files t = [] := by
  have sum : c.total = 0 ↔ ∀ list ∈ c.values, list = [] := by
    rw [total]
    induction c.values with
    | nil => simp
    | cons list lists ih => simp [ih]
  rw [sum]
  constructor
  · intro empty t
    rw [files]
    cases found : c.get? t with
    | none => rfl
    | some list => exact empty list ((Dict.mem_values_iff c list).2 ⟨t, found⟩)
  · intro empty list mem
    obtain ⟨t, found⟩ := (Dict.mem_values_iff c list).1 mem
    have none := empty t
    rwa [files, found] at none

namespace Selection

/-- Without an eligible candidate the lists stay as they were. -/
theorem classify_of_total_eq_zero {s : Selection} {paths : List String}
    (h : (s.classify paths).total = 0) : s.classify paths = s.emptyClassification := by
  have ineligible : ∀ path ∈ paths, s.typeOf? path = none := by
    intro path mem
    cases typed : s.typeOf? path with
    | none => rfl
    | some t =>
      have none := (Classification.total_eq_zero_iff _).1 h t
      rw [files_classify, List.filter_eq_nil_iff] at none
      exact absurd (decide_eq_true typed) (none path mem)
  rw [classify_eq_foldl]
  clear h
  induction paths with
  | nil => rfl
  | cons path paths ih =>
    have unplaced : s.place s.emptyClassification path = s.emptyClassification := by
      simp only [place, ineligible path List.mem_cons_self]
    rw [List.foldl_cons, unplaced, ih fun p mem => ineligible p (List.mem_cons_of_mem _ mem)]

end Selection

/-- A root that is a link to a directory is not walked. -/
theorem collect_of_link {host : Host} {s : Selection} {target : String}
    {entries : List (String × Entry)} (leads : host.entryAt s.root = .ok (.dir entries))
    (isLink : host.linkAt s.root = .ok (.link target)) :
    collect host s = ⟨s.emptyClassification, [.noFiles s.root]⟩ := by
  have candidates : candidates? host s = some [] := by simp only [candidates?, leads, isLink]
  have nothing : s.emptyClassification.total = 0 :=
    (Classification.total_eq_zero_iff _).2 s.files_emptyClassification
  simp only [collect, candidates]
  rw [show s.classify [] = s.emptyClassification from rfl, if_pos nothing]

/-- **Links on the way to a root make no difference, a link at its end hides all there is.** Compare a
root that leads to a directory with the path of that directory itself. If the root is a directory, the
same files are collected at both, in the same order and under the same types, up to the path they start
with, unless a path that is left out tells them apart. If the root is a link, nothing is collected and
that is reported, so both are the same just if the directory has nothing to collect. -/
theorem collect_through_links (host : Host) (s : Selection) (dir : String)
    (entries : List (String × Entry)) (proper : Entry.ProperIn entries)
    (leads : host.entryAt s.root = .ok (.dir entries)) (itself : host.linkAt dir = .ok (.dir entries)) :
    let through := collect host s
    let direct := collect host (s.rootedAt dir)
    let same := through.classification.Moved ((Entry.dir entries).SameFile s.root dir)
      direct.classification
    ((∃ found, host.linkAt s.root = .ok (.dir found)) →
      (∀ names bytes, (Entry.dir entries).at? names = some (.file bytes) →
        (Path.below s.root names ∈ s.excludePaths ↔ Path.below dir names ∈ s.excludePaths)) → same) ∧
    ((∃ target, host.linkAt s.root = .ok (.link target)) →
      through.classification = s.emptyClassification ∧ through.problems = [.noFiles s.root] ∧
      (same ↔ direct.classification.total = 0)) := by
  intro through direct same
  constructor
  · rintro ⟨found, isDir⟩ alike
    obtain rfl : found = entries := by
      have both := (Host.entryAt_of_linkAt isDir).symm.trans leads
      simpa using both
    refine s.collect_moved proper isDir itself ?_
    rintro p q ⟨names, bytes, there, rfl, rfl⟩
    exact alike names bytes there
  · rintro ⟨target, isLink⟩
    have hidden : through = ⟨s.emptyClassification, [.noFiles s.root]⟩ := collect_of_link leads isLink
    have walked : direct.classification = s.classify (filesIn s.excludesDir dir entries) :=
      @collect_of_linkAt host (s.rootedAt dir) entries itself
    refine ⟨by rw [hidden], by rw [hidden], ?_⟩
    simp only [same, hidden]
    constructor
    · intro moved
      rw [Classification.total_eq_zero_iff]
      intro t
      have files := moved.files t
      rw [s.files_emptyClassification] at files
      exact List.forall₂_nil_left_iff.1 files
    · intro nothing
      rw [walked] at nothing ⊢
      rw [Selection.classify_of_total_eq_zero nothing]
      exact s.emptyClassification_moved

/-- A release and a link to it. -/
def releaseTree : List (String × Entry) := [("index.php", .text "<?php\n")]

def releaseHost : Host where
  tree := .dir [("current", .link "release"), ("release", .dir releaseTree)]
  cwd := "/"
  env := {}

def releaseSelection : Selection where
  root := "/current"
  extensions := ["php"]
  excludeDirs := []
  excludeFiles := []
  excludePaths := []
  fixableOnly := false

theorem releaseHost_current :
    releaseHost.linkAt "/current" = .ok (.link "release") ∧
    releaseHost.entryAt "/current" = .ok (.dir releaseTree) := by
  have way (follow : Bool) : releaseHost.place follow "/current" =
      releaseHost.tree.locate follow (39 + 1) [] ["current"] := by
    rw [Host.place_of_takes (by decide)]
    exact Entry.locate_skip rfl _
  have link : releaseHost.tree.at? ([] ++ ["current"]) = some (.link "release") := rfl
  constructor
  · rw [Host.linkAt, way, Entry.locate, if_neg (by decide), if_neg (by decide), if_neg (by decide), link]
    rfl
  · have followed : releaseHost.tree.locate true (39 + 1) [] ["current"] =
        .ok (.found ["release"] (.dir releaseTree)) := by
      rw [Entry.locate_link (by decide) (by decide) (by decide) link]
      exact Entry.locate_names rfl rfl (by simp) (by decide)
    rw [Host.entryAt, way, followed]

/-- The release has a file to look at, and the link to it has none. -/
theorem collect_through_links_release :
    releaseHost.entryAt "/current" = .ok (.dir releaseTree) ∧
    releaseHost.linkAt "/current" = .ok (.link "release") ∧
    releaseHost.linkAt "/release" = .ok (.dir releaseTree) ∧
    let through := collect releaseHost releaseSelection
    let direct := collect releaseHost (releaseSelection.rootedAt "/release")
    direct.classification.files FileType.php = ["/release/index.php"] ∧
    through.classification.files FileType.php = [] ∧
    ¬through.classification.Moved ((Entry.dir releaseTree).SameFile "/current" "/release")
      direct.classification := by
  have isLink := releaseHost_current.1
  have leads := releaseHost_current.2
  have itself : releaseHost.linkAt "/release" = .ok (.dir releaseTree) :=
    @Host.linkAt_names releaseHost ["release"] releaseTree rfl (by decide) (by decide) (by decide)
      (by decide)
  have proper : Entry.ProperIn releaseTree := by
    simp only [releaseTree, Entry.ProperIn, Entry.Proper, Entry.text]
    decide
  have files : (collect releaseHost (releaseSelection.rootedAt "/release")).classification.files
      FileType.php = ["/release/index.php"] := by
    rw [@collect_of_linkAt releaseHost (releaseSelection.rootedAt "/release") releaseTree itself]
    decide
  obtain ⟨none, _, same⟩ := (collect_through_links releaseHost releaseSelection "/release" releaseTree
    proper leads itself).2 ⟨"release", isLink⟩
  refine ⟨leads, isLink, itself, files, ?_, ?_⟩
  · rw [none]
    exact releaseSelection.files_emptyClassification _
  · intro moved
    have nothing := (Classification.total_eq_zero_iff _).1 (same.1 moved) FileType.php
    exact absurd (files.symm.trans nothing) (List.cons_ne_nil _ _)

end ShopLint
