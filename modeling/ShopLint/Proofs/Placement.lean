import ShopLint.Collection.Walk
import ShopLint.Proofs.FileTree
import ShopLint.Proofs.Text.Utf8
import ShopLint.Rule.Basic
import Mathlib.Data.List.Forall2

/-!
A tree that stands somewhere: the paths of its files start with the place, and what is read from them
is what the tree holds. At two places the walk finds the same files in the same order.
-/

namespace ShopLint

namespace Path

/-- What the paths below a directory start with; the slash that follows is not part of it. -/
def stem (dir : String) : String := if dir = "/" then "" else dir

/-- The path of what stands at the given names below a directory. -/
def below (dir : String) (names : List String) : String := names.foldl childPath dir

theorem childPath_eq (dir name : String) : childPath dir name = stem dir ++ "/" ++ name := by
  simp only [childPath, stem]
  split
  · simp
  · rfl

/-- The path of the directory above, a slash and the last name. -/
theorem below_eq (dir : String) {names : List String} (nonempty : names ≠ []) :
    below dir names = stem (below dir names.dropLast) ++ "/" ++ names.getLast nonempty := by
  conv_lhs => rw [← List.dropLast_concat_getLast nonempty]
  simp only [below, List.foldl_append, List.foldl_cons, List.foldl_nil, childPath_eq]

theorem stem_childPath (dir : String) {name : String} (h : IsName name) :
    stem (childPath dir name) = stem dir ++ "/" ++ name := by
  rw [stem, if_neg, childPath_eq]
  intro eq
  have length := congrArg String.length eq
  have some : name.length ≠ 0 := fun zero => h.1 (String.length_eq_zero_iff.1 zero)
  rw [childPath_eq, String.length_append, String.length_append] at length
  simp only [show "/".length = 1 from rfl] at length
  omega

theorem below_eq_join (dir : String) {names : List String} (nonempty : names ≠ [])
    (proper : ∀ n ∈ names, IsProper n) :
    below dir names = stem dir ++ "/" ++ Text.join "/" names := by
  induction names generalizing dir with
  | nil => exact absurd rfl nonempty
  | cons name names ih =>
    cases names with
    | nil => exact childPath_eq dir name
    | cons next names =>
      show below (childPath dir name) (next :: names) = _
      rw [ih _ (List.cons_ne_nil _ _) fun n mem => proper n (List.mem_cons_of_mem _ mem),
        stem_childPath dir (proper name List.mem_cons_self).1]
      simp only [Text.join, String.append_assoc]

theorem segments_join {names : List String} (nonempty : names ≠ []) (proper : ∀ n ∈ names, IsProper n) :
    segments (Text.join "/" names) = names := by
  induction names with
  | nil => exact absurd rfl nonempty
  | cons name names ih =>
    have first := segments_of_isName (proper name List.mem_cons_self).1.2
    cases names with
    | nil => exact first
    | cons next names =>
      simp only [Text.join]
      rw [segments_append, first, List.singleton_append,
        ih (List.cons_ne_nil _ _) fun n mem => proper n (List.mem_cons_of_mem _ mem)]

theorem segments_below (dir : String) {names : List String} (nonempty : names ≠ [])
    (proper : ∀ n ∈ names, IsProper n) :
    segments (below dir names) = segments (stem dir) ++ names := by
  rw [below_eq_join dir nonempty proper, segments_append, segments_join nonempty proper]

/-- What is below a directory is an absolute path just if the directory is. -/
theorem isAbsolute_below {dir : String} (named : dir ≠ "") {names : List String}
    (nonempty : names ≠ []) (proper : ∀ n ∈ names, IsProper n) :
    isAbsolute (below dir names) = isAbsolute dir := by
  rw [below_eq_join dir nonempty proper, stem]
  split
  next top => simp [isAbsolute, Text.startsWith, top]
  next =>
    cases chars : dir.toList with
    | nil => exact absurd (String.toList_eq_nil_iff.1 chars) named
    | cons c cs => simp [isAbsolute, Text.startsWith, chars, List.isPrefixOf]

/-- Different names lead to different paths. -/
theorem below_injective (dir : String) {names others : List String} (nonempty : names ≠ [])
    (nonempty' : others ≠ []) (proper : ∀ n ∈ names, IsProper n) (proper' : ∀ n ∈ others, IsProper n)
    (h : below dir names = below dir others) : names = others := by
  have same := congrArg segments h
  rw [segments_below dir nonempty proper, segments_below dir nonempty' proper'] at same
  exact List.append_cancel_left same

theorem base_below (dir : String) {names : List String} (nonempty : names ≠ [])
    (proper : ∀ n ∈ names, IsProper n) : base (below dir names) = names.getLast nonempty := by
  rw [below_eq dir nonempty]
  exact base_append (proper _ (List.getLast_mem nonempty)).1

/-- How a path ends is decided by its last name, when the ending is part of a name. -/
theorem endsWith_below (dir : String) {names : List String} (nonempty : names ≠ []) {tail : String}
    (h : '/' ∉ tail.toList) :
    Text.endsWith (below dir names) tail = Text.endsWith (names.getLast nonempty) tail := by
  rw [below_eq dir nonempty]
  generalize names.getLast nonempty = name, stem (below dir names.dropLast) = front
  have lists : (front ++ "/" ++ name).toList = front.toList ++ '/' :: name.toList := by simp
  rw [Bool.eq_iff_iff, Text.endsWith, Text.endsWith, List.isSuffixOf_iff_suffix,
    List.isSuffixOf_iff_suffix, lists]
  constructor
  · rintro ⟨before, eq⟩
    rcases List.append_eq_append_iff.1 eq with ⟨more, _, rest⟩ | ⟨more, _, rest⟩
    · exact absurd (rest ▸ List.mem_append_right _ List.mem_cons_self) h
    · rcases List.cons_eq_append_iff.1 rest with ⟨_, tail_eq⟩ | ⟨others, _, name_eq⟩
      · exact absurd (tail_eq ▸ List.mem_cons_self) h
      · exact ⟨others, name_eq.symm⟩
  · rintro ⟨before, eq⟩
    exact ⟨front.toList ++ '/' :: before, by rw [← eq]; simp⟩

end Path

/-- Of each file what is in it is loaded, if that is anything. -/
theorem loadAll_cons (host : Host) (path : String) (paths : List String) :
    loadAll host (path :: paths) =
      if host.readOrEmpty path = "" then loadAll host paths
      else ⟨path, (host.readOrEmpty path).toList⟩ :: loadAll host paths := by
  cases found : host.read path with
  | error cause => simp [loadAll, loadWith, Host.readOrEmpty, found]
  | ok content =>
    by_cases empty : content = "" <;> simp [loadAll, loadWith, Host.readOrEmpty, found, empty]

theorem mem_loadAll_iff {host : Host} {paths : List String} {src : SourceFile} :
    src ∈ loadAll host paths ↔ ∃ path ∈ paths, host.readOrEmpty path ≠ "" ∧
      src = ⟨path, (host.readOrEmpty path).toList⟩ := by
  induction paths with
  | nil => simp [loadAll, loadWith]
  | cons path paths ih =>
    rw [loadAll_cons, List.exists_mem_cons_iff, ← ih]
    split
    next empty => simp [empty]
    next nonempty => rw [List.mem_cons, and_iff_right nonempty]

/-- The tree stands at `root` on the host, and a scan that is given `given` starts there. -/
structure Host.Places (host : Host) (given root : String) (tree : Entry) : Prop where
  named : Text.trim given ≠ ""
  resolved : host.absolute given = .ok root
  found : host.linkAt root = .ok tree

namespace Host

/-- The path is one that the host follows: neither empty nor too long, and without a zero byte. -/
def Takes (path : String) : Prop :=
  path ≠ "" ∧ '\x00' ∉ path.toList ∧ path.utf8ByteSize < 4096

instance (path : String) : Decidable (Takes path) := inferInstanceAs (Decidable (_ ∧ _))

/-- Where the way of a path starts. -/
def start (host : Host) (path : String) : List String :=
  if Path.isAbsolute path then [] else (Path.segments host.cwd).filter (· ≠ "")

theorem place_of_takes {path : String} (h : Takes path) (host : Host) (follow : Bool) :
    host.place follow path =
      host.tree.locate follow linkLimit (host.start path) (Path.segments path) := by
  obtain ⟨named, noZero, short⟩ := h
  simp only [place, if_neg named, List.contains_iff_mem, if_neg noZero, if_neg (Nat.not_le.2 short)]
  rfl

theorem place_of_not_takes {path : String} (h : ¬Takes path) (host : Host) (follow : Bool) :
    ∃ cause, host.place follow path = .error cause := by
  simp only [place]
  split
  · exact ⟨_, rfl⟩
  next named =>
    split
    · exact ⟨_, rfl⟩
    next noZero =>
      split
      · exact ⟨_, rfl⟩
      next short =>
        exact absurd ⟨named, by simpa using noZero, Nat.not_le.1 short⟩ h

theorem linkAt_eq_ok {host : Host} {path : String} {entry : Entry} (h : host.linkAt path = .ok entry) :
    Takes path ∧ ∃ names,
      host.tree.locate false linkLimit (host.start path) (Path.segments path) =
        .ok (.found names entry) := by
  simp only [linkAt] at h
  by_cases takes : Takes path
  · refine ⟨takes, ?_⟩
    rw [place_of_takes takes] at h
    split at h
    next names e found =>
      cases h
      exact ⟨names, found⟩
    · cases h
    · cases h
  · obtain ⟨cause, failed⟩ := place_of_not_takes takes host false
    rw [failed] at h
    cases h

/-- A path by names from the top is followed by these names. -/
theorem place_below_top {host : Host} {names : List String} (nonempty : names ≠ [])
    (proper : ∀ n ∈ names, Path.IsProper n) (takes : Takes (Path.below "/" names)) (follow : Bool) :
    host.place follow (Path.below "/" names) = host.tree.locate follow linkLimit [] names := by
  have top : Path.isAbsolute (Path.below "/" names) = true :=
    Path.isAbsolute_below (by decide) nonempty proper
  rw [place_of_takes takes, start, if_pos top, Path.segments_below "/" nonempty proper,
    show Path.segments (Path.stem "/") = [""] from rfl, List.singleton_append, Entry.locate_skip rfl]

/-- A directory stands where its names say. -/
theorem linkAt_names {host : Host} {names : List String} {entries : List (String × Entry)}
    (found : host.tree.at? names = some (.dir entries)) (nonempty : names ≠ [])
    (proper : ∀ n ∈ names, Path.IsProper n) (short : ∀ n ∈ names, n.utf8ByteSize ≤ 255)
    (takes : Takes (Path.below "/" names)) :
    host.linkAt (Path.below "/" names) = .ok (.dir entries) := by
  have way : host.place false (Path.below "/" names) = .ok (.found names (.dir entries)) := by
    rw [place_below_top nonempty proper takes, Entry.locate_names rfl found (by simp) proper,
      if_pos short, List.nil_append]
  simp only [linkAt, way]

/-- A file stands where its names say. -/
theorem isFileAt_names {host : Host} {names : List String} {bytes : List UInt8}
    (found : host.tree.at? names = some (.file bytes)) (nonempty : names ≠ [])
    (proper : ∀ n ∈ names, Path.IsProper n) (short : ∀ n ∈ names, n.utf8ByteSize ≤ 255)
    (takes : Takes (Path.below "/" names)) : host.isFileAt (Path.below "/" names) := by
  have way : host.place true (Path.below "/" names) = .ok (.found names (.file bytes)) := by
    rw [place_below_top nonempty proper takes, Entry.locate_names rfl found (by simp) proper,
      if_pos short, List.nil_append]
  simp only [isFileAt, entryAt, way]
  rfl

theorem existsAt_of_isFileAt {host : Host} {path : String} (h : host.isFileAt path) :
    host.existsAt path := by
  cases found : host.entryAt path with
  | ok entry => simp only [existsAt, found]
  | error cause =>
    simp only [isFileAt, found] at h
    cases h

/-- Where a directory lacks a name, no path leads on. -/
theorem existsAt_of_lacks {host : Host} {names more : List String} {name : String}
    {entries : List (String × Entry)} (found : host.tree.at? names = some (.dir entries))
    (lacks : entries.lookup name = none) (proper : ∀ n ∈ names ++ name :: more, Path.IsProper n)
    (short : ∀ n ∈ names, n.utf8ByteSize ≤ 255) :
    host.existsAt (Path.below "/" (names ++ name :: more)) = false := by
  by_cases takes : Takes (Path.below "/" (names ++ name :: more))
  · obtain ⟨namesProper, moreProper⟩ := List.forall_mem_append.1 proper
    obtain ⟨⟨nonempty, _⟩, notDot, down⟩ := moreProper name List.mem_cons_self
    have named : ¬(name = "" || name = ".") = true := by simp [nonempty, notDot]
    have absent : host.tree.at? (names ++ [name]) = none := by
      rw [Entry.at?_append, found, Option.bind_some, Entry.at?_singleton]
      exact lacks
    have down' : host.tree.locate false linkLimit [] names = .ok (.found names (.dir entries)) := by
      rw [Entry.locate_names rfl found (by simp) namesProper, if_pos short, List.nil_append]
    obtain ⟨_, left, goesOn⟩ := Entry.locate_append down'
    have way : host.place true (Path.below "/" (names ++ name :: more)) =
        host.tree.locate true left names (name :: more) := by
      rw [place_below_top (by simp) proper takes, goesOn]
    rw [Entry.locate, if_neg named, if_neg down, absent] at way
    simp only [existsAt, entryAt, way]
    split_ifs <;> rfl
  · obtain ⟨cause, failed⟩ := place_of_not_takes takes host true
    simp only [existsAt, entryAt, failed]

/-- From the place of a tree on, only the tree matters. -/
theorem locate_below {host : Host} {root : String} {entries : List (String × Entry)}
    (h : host.linkAt root = .ok (.dir entries)) :
    ∃ names left, host.tree.at? names = some (.dir entries) ∧ ∀ more,
      host.tree.locate true linkLimit (host.start root) (Path.segments (Path.stem root) ++ more) =
        host.tree.locate true left names more := by
  obtain ⟨_, names, located⟩ := linkAt_eq_ok h
  obtain ⟨found, left, goesOn⟩ := Entry.locate_append located
  refine ⟨names, left, found, fun more => ?_⟩
  rw [← goesOn more]
  -- at the top the way has one empty segment more, which is passed over
  by_cases top : root = "/"
  · subst top
    exact (Entry.locate_skip rfl _).symm
  · rw [Path.stem, if_neg top]

/-- What is read below the place of a tree is what the tree holds, unless the path or a name in it is
too long. -/
theorem bytes_below {host : Host} {root : String} {bytes : List UInt8} {entries : List (String × Entry)}
    {names : List String} (found : host.linkAt root = .ok (.dir entries))
    (proper : Entry.ProperIn entries) (h : (Entry.dir entries).at? names = some (.file bytes)) :
    (host.bytes (Path.below root names)).toOption =
      if Takes (Path.below root names) ∧ ∀ n ∈ names, n.utf8ByteSize ≤ 255 then some bytes
      else none := by
  have properNames := (Entry.ProperIn.of_at? proper h).1
  have nonempty := Entry.ne_nil_of_at?_file h
  obtain ⟨here, left, stands, goesOn⟩ := locate_below found
  have rooted := Path.isAbsolute_below (linkAt_eq_ok found).1.1 nonempty properNames
  by_cases takes : Takes (Path.below root names)
  · have way : host.place true (Path.below root names) =
        host.tree.locate true left here names := by
      rw [place_of_takes takes, start, rooted, Path.segments_below root nonempty properNames]
      exact goesOn names
    rw [Entry.locate_names stands h (by simp) properNames] at way
    by_cases all : ∀ n ∈ names, n.utf8ByteSize ≤ 255
    · rw [if_pos all] at way
      rw [if_pos ⟨takes, all⟩]
      simp only [Host.bytes, entryAt, way]
      rfl
    · rw [if_neg all] at way
      rw [if_neg fun both => all both.2]
      simp only [Host.bytes, entryAt, way]
      rfl
  · obtain ⟨cause, failed⟩ := place_of_not_takes takes host true
    rw [if_neg fun both => takes both.1]
    simp only [Host.bytes, entryAt, failed]
    rfl

theorem bytes_eq_below {host : Host} {root : String} {bytes : List UInt8}
    {entries : List (String × Entry)} {names : List String}
    (found : host.linkAt root = .ok (.dir entries)) (proper : Entry.ProperIn entries)
    (h : (Entry.dir entries).at? names = some (.file bytes)) (takes : Takes (Path.below root names))
    (short : ∀ n ∈ names, n.utf8ByteSize ≤ 255) : host.bytes (Path.below root names) = .ok bytes := by
  have read := bytes_below found proper h
  rw [if_pos ⟨takes, short⟩] at read
  cases outcome : host.bytes (Path.below root names) with
  | error _ =>
    rw [outcome] at read
    cases read
  | ok _ =>
    rw [outcome] at read
    cases read
    rfl

section

variable {host : Host} {root content : String} {entries : List (String × Entry)} {names : List String}
  (found : host.linkAt root = .ok (.dir entries)) (proper : Entry.ProperIn entries)
  (h : (Entry.dir entries).at? names = some (.text content)) (takes : Takes (Path.below root names))
  (short : ∀ n ∈ names, n.utf8ByteSize ≤ 255)

include found proper h takes short

/-- A text of the tree is read as it is, and so when it is to be a document. -/
theorem read_eq_below : host.read (Path.below root names) = .ok content := by
  rw [read, bytes_eq_below found proper h takes short, Except.map, Utf8.decode_encode]

theorem readDocument_eq_below : host.readDocument (Path.below root names) = .ok content := by
  rw [readDocument, bytes_eq_below found proper h takes short, Except.map, Utf8.decode_encode]

theorem readOrEmpty_below : host.readOrEmpty (Path.below root names) = content := by
  rw [readOrEmpty, read_eq_below found proper h takes short]

/-- A file of the tree that is not empty is loaded with its content. -/
theorem loadAll_below (nonempty : content ≠ "") :
    loadAll host [Path.below root names] = [⟨Path.below root names, content.toList⟩] := by
  simp [loadAll, loadWith, read_eq_below found proper h takes short, nonempty]

end

/-- What stands at the root of a scan is a directory also when links are followed. -/
theorem entryAt_of_linkAt {host : Host} {root : String} {entries : List (String × Entry)}
    (h : host.linkAt root = .ok (.dir entries)) : host.entryAt root = .ok (.dir entries) := by
  obtain ⟨takes, names, located⟩ := linkAt_eq_ok h
  obtain ⟨found, left, goesOn⟩ := Entry.locate_append located
  have way : host.place true root = .ok (.found names (.dir entries)) := by
    rw [place_of_takes takes, ← List.append_nil (Path.segments root), goesOn [], Entry.locate, found]
  simp only [entryAt, way]

theorem takes_below {host : Host} {root : String} {entry : Entry} (h : host.linkAt root = .ok entry)
    {names : List String} (nonempty : names ≠ []) (proper : ∀ n ∈ names, Path.IsProper n) :
    Takes (Path.below root names) ↔ '\x00' ∉ (Text.join "/" names).toList ∧
      (Path.below root names).utf8ByteSize < 4096 := by
  have noZero := (linkAt_eq_ok h).1.2.1
  have inStem : '\x00' ∉ (Path.stem root).toList := by
    rw [Path.stem]
    split
    · simp
    · exact noZero
  have lists : (Path.below root names).toList =
      (Path.stem root).toList ++ '/' :: (Text.join "/" names).toList := by
    rw [Path.below_eq_join root nonempty proper]
    simp
  have named : Path.below root names ≠ "" := by
    intro eq
    rw [eq] at lists
    simp at lists
  simp only [Takes, ne_eq, named, not_false_eq_true, true_and, lists, List.mem_append, inStem,
    false_or, List.mem_cons, show '\x00' ≠ '/' by decide]

end Host

/-- The two paths are those of one file of the tree, at two places. -/
def Entry.SameFile (tree : Entry) (root₁ root₂ p q : String) : Prop :=
  ∃ names bytes, tree.at? names = some (.file bytes) ∧
    p = Path.below root₁ names ∧ q = Path.below root₂ names

mutual

/-- Walking what stands at the names `here` of a tree, at two places. -/
theorem sameFile_filesAt {tree : Entry} (excluded : String → Bool) (root₁ root₂ : String)
    {here : List String} : ∀ {entry : Entry}, entry.Proper → tree.at? here = some entry →
      List.Forall₂ (tree.SameFile root₁ root₂) (filesAt excluded (Path.below root₁ here) entry)
        (filesAt excluded (Path.below root₂ here) entry)
  | .file bytes, _, found => .cons ⟨here, bytes, found, rfl, rfl⟩ .nil
  | .dir entries, proper, found =>
    -- names are in order, so looking an entry up by its name finds that entry
    sameFile_filesIn excluded root₁ root₂ proper fun e mem => by
      rw [Entry.at?_append, found, Option.bind_some, Entry.at?_singleton]
      exact Entry.ProperIn.lookup proper mem
  | .device, _, _ => .nil
  | .link _, _, _ => .nil

theorem sameFile_filesIn {tree : Entry} (excluded : String → Bool) (root₁ root₂ : String)
    {here : List String} : ∀ {entries : List (String × Entry)}, Entry.ProperIn entries →
      (∀ e ∈ entries, tree.at? (here ++ [e.1]) = some e.2) →
      List.Forall₂ (tree.SameFile root₁ root₂) (filesIn excluded (Path.below root₁ here) entries)
        (filesIn excluded (Path.below root₂ here) entries)
  | [], _, _ => .nil
  | (name, entry) :: rest, ⟨_, _, proper, others⟩, found => by
    have later := sameFile_filesIn excluded root₁ root₂ others
      fun e mem => found e (List.mem_cons_of_mem _ mem)
    have childPath_below (root : String) :
        childPath (Path.below root here) name = Path.below root (here ++ [name]) := by
      simp only [Path.below, List.foldl_append, List.foldl_cons, List.foldl_nil]
    simp only [filesIn, childPath_below]
    split
    · exact later
    · exact List.rel_append
        (sameFile_filesAt excluded root₁ root₂ proper (found _ List.mem_cons_self)) later

end

/-- What a scan looks at when a tree stands at its root. -/
theorem collect_of_linkAt {host : Host} {s : Selection} {entries : List (String × Entry)}
    (h : host.linkAt s.root = .ok (.dir entries)) :
    (collect host s).classification = s.classify (filesIn s.excludesDir s.root entries) := by
  have candidates : candidates? host s = some (filesIn s.excludesDir s.root entries) := by
    simp only [candidates?, Host.entryAt_of_linkAt h, h]
  simp only [collect, candidates]

namespace Entry

variable {entries : List (String × Entry)} {root₁ root₂ : String}

/-- The files of one tree that is walked at two places. -/
theorem sameFile_walk (proper : ProperIn entries) (excluded : String → Bool) :
    List.Forall₂ ((dir entries).SameFile root₁ root₂) (filesIn excluded root₁ entries)
      (filesIn excluded root₂ entries) :=
  @sameFile_filesIn _ excluded root₁ root₂ [] _ proper fun e mem => by
    rw [List.nil_append, at?_singleton]
    exact proper.lookup mem

theorem SameFile.biUnique (proper : ProperIn entries) :
    Relator.BiUnique ((dir entries).SameFile root₁ root₂) := by
  have unique (root : String) {names others : List String} {bytes other : List UInt8}
      (h : (dir entries).at? names = some (file bytes))
      (h' : (dir entries).at? others = some (file other))
      (eq : Path.below root names = Path.below root others) : names = others :=
    Path.below_injective root (ne_nil_of_at?_file h) (ne_nil_of_at?_file h')
      (proper.of_at? h).1 (proper.of_at? h').1 eq
  constructor
  · rintro p p' q ⟨names, bytes, h, rfl, rfl⟩ ⟨others, other, h', rfl, eq⟩
    rw [unique root₂ h h' eq]
  · rintro p q q' ⟨names, bytes, h, rfl, rfl⟩ ⟨others, other, h', eq, rfl⟩
    rw [unique root₁ h h' eq]

end Entry

end ShopLint
