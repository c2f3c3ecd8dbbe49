import ShopLint.Command.Line
import Std.Time.DateTime.Timestamp

/-!
The program. What a run may look at is read from the disk beforehand: all that the arguments name, and
what lies beside them and above them that tells of repositories and modules. Then the run itself is
computed, and its output is written.
-/

namespace ShopLint.Program

/-- What a run looks at in every directory above the one it scans. -/
def landmarks : List String := [".git", "HEAD", "config", "packed-refs", "refs", "etc/di.xml", "registration.php"]

def variableNames : List String := ["HOME", Settings.defaultTokenEnv] ++ Ci.variableNames

/-- The paths that arguments may name, as they are or after an equals sign. -/
def namedPaths (args : List String) : List String :=
  args.flatMap fun arg => arg :: ((Text.cut "=" arg).map Prod.snd).toList

def names (path : String) : List String := (Path.segments path).filter (· ≠ "")

/-- The folders on the way to a path, the path itself among them. -/
def folders (names : List String) : List String :=
  (List.range names.length).map fun n => "/" ++ Text.join "/" (names.take (n + 1))

/-- An entry of the disk with all that is in it, the objects of repositories apart. -/
partial def readEntry (path : String) : IO (Option Entry) := do
  let file := (← IO.currentDir) / path
  try
    match (← file.symlinkMetadata).type with
    | .dir =>
      let mut entries := []
      for child in ← file.readDir do
        unless Text.endsWith path "/.git" && child.fileName = "objects" do
          if let some entry ← readEntry (path ++ "/" ++ child.fileName) then
            entries := (child.fileName, entry) :: entries
      return some (.dir (entries.mergeSort fun a b => a.1 ≤ b.1))
    | .file => return some (.file (← IO.FS.readBinFile file).toList)
    | .symlink => return some (.link (← IO.FS.realPath file).toString)
    | .other => return some .device
  catch _ => return none

/-- The tree with what the disk holds at a path, the directories above it, and the landmarks in them.
Where a link leads elsewhere, that is read too. -/
partial def load (tree : Entry) (done : List String) : List String → IO Entry
  | [] => do
    match ← readEntry ("/" ++ Text.join "/" done) with
    | some entry => return tree.put done entry
    | none => return tree
  | name :: rest => do
    let here := done ++ [name]
    let file := (← IO.currentDir) / ("/" ++ Text.join "/" here)
    try
      match (← file.symlinkMetadata).type with
      | .symlink =>
        let target := (← IO.FS.realPath file).toString
        let tree := tree.put here (.link target)
        if names target = here then return tree else load tree [] (names target ++ rest)
      | .dir =>
        let mut tree := if (tree.at? here).isSome then tree else tree.put here (.dir [])
        for landmark in landmarks do
          let place := here ++ names landmark
          if (tree.at? place).isNone then
            if let some entry ← readEntry ("/" ++ Text.join "/" place) then tree := tree.put place entry
        load tree here rest
      | _ => load tree here rest
    catch _ => return tree

/-- The machine as far as a run with these arguments may look at it. -/
def readHost (args : List String) : IO Host := do
  let cwd := (← IO.currentDir).toString
  let mut env := []
  for name in variableNames do
    if let some value ← IO.getEnv name then env := (name, value) :: env
  let bare : Host := { tree := .dir [], cwd := cwd, env := Dict.ofList env }
  let mut tree := bare.tree
  for path in Settings.defaultFile :: namedPaths args do
    if let .ok full := bare.absolute path then
      tree ← load tree [] (names full)
      for folder in folders (names full) do
        if let some dir := Revision.dataDir? { bare with tree := tree } folder then
          if dir ≠ folder then tree ← load tree [] (names dir)
  return { bare with tree := tree }

def context : IO RunContext := do
  let now ← Std.Time.Timestamp.now
  return { scanId := ScanId.ofBytes (← IO.getRandomBytes 16).toList
           now := .ofNanoseconds now.toNanosecondsSinceUnixEpoch.val }

end ShopLint.Program

open ShopLint in
def main (args : List String) : IO UInt32 := do
  let outcome := Command.run (← Program.context) (← Program.readHost args) args
  IO.print outcome.stdout
  IO.eprint outcome.stderr
  if let some (path, text) := outcome.saved then
    IO.FS.createDirAll (Path.dir path)
    IO.FS.writeFile path text
  return UInt32.ofNat outcome.exit
