import ShopLint.Collection.Classification

/-!
Collecting the files of a selection. Directories are walked in the order of their entries' names;
links are never followed below the root.
-/

namespace ShopLint

/-- The path of an entry of a directory. -/
def childPath (dir name : String) : String := if dir = "/" then "/" ++ name else dir ++ "/" ++ name

mutual

/-- The regular files at and below an entry that stands at `path`. -/
def filesAt (excluded : String → Bool) (path : String) : Entry → List String
  | .file _ => [path]
  | .dir entries => filesIn excluded path entries
  | _ => []

/-- The regular files below the entries of the directory `path`. -/
def filesIn (excluded : String → Bool) (path : String) : List (String × Entry) → List String
  | [] => []
  | (name, entry) :: rest =>
    (if entry.isDir && excluded name then [] else filesAt excluded (childPath path name) entry) ++
      filesIn excluded path rest

end

/-- Why a scan found nothing to look at. -/
inductive CollectProblem
  | invalidPath (root : String)
  | noFiles (root : String)
  deriving DecidableEq, Repr

def CollectProblem.message : CollectProblem → String
  | invalidPath root => s!"Invalid path: {root}"
  | noFiles root => s!"No files found to analyse in {root}"

/-- What was collected, and what was wrong with the root. -/
structure Collected where
  classification : Classification
  problems : List CollectProblem

/-- The candidates of a selection; none when its root is neither a directory nor a file. A root that
is a link to a directory has no candidates. -/
def candidates? (host : Host) (s : Selection) : Option (List String) :=
  match host.entryAt s.root with
  | .ok (.dir _) =>
    match host.linkAt s.root with
    | .ok (.dir entries) => some (filesIn s.excludesDir s.root entries)
    | _ => some []
  | .ok (.file _) => some [s.root]
  | _ => none

def collect (host : Host) (s : Selection) : Collected :=
  match candidates? host s with
  | none => ⟨s.emptyClassification, [.invalidPath s.root]⟩
  | some paths =>
    let c := s.classify paths
    ⟨c, if c.total = 0 then [.noFiles s.root] else []⟩

end ShopLint
