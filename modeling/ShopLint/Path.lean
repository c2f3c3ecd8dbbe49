import ShopLint.Text.Basic

/-!
Slash-separated paths as text. A path is cleaned without looking at any file: empty and `.` segments
go, and `..` takes the segment before it with it.
-/

namespace ShopLint.Path

def isAbsolute (path : String) : Bool := Text.startsWith path "/"

def segments (path : String) : List String := Text.splitOn '/' path

/-- Segments without empty ones, `.` and `..`; `done` holds those passed, the last first. Above an
absolute path's top `..` leads nowhere; a relative path keeps it. -/
def cleanSegments (rooted : Bool) (done : List String) : List String → List String
  | [] => done.reverse
  | segment :: rest =>
    if segment = "" || segment = "." then cleanSegments rooted done rest
    else if segment = ".." then
      match done with
      | [] => cleanSegments rooted (if rooted then [] else [".."]) rest
      | last :: others =>
        cleanSegments rooted (if last = ".." then ".." :: last :: others else others) rest
    else cleanSegments rooted (segment :: done) rest

/-- The shortest path that means the same. -/
def clean (path : String) : String :=
  if isAbsolute path then "/" ++ Text.join "/" (cleanSegments true [] (segments path))
  else
    match cleanSegments false [] (segments path) with
    | [] => "."
    | cleaned => Text.join "/" cleaned

/-- The parts that are not empty, joined by slashes and cleaned. -/
def join (parts : List String) : String :=
  match parts.filter (· ≠ "") with
  | [] => ""
  | parts => clean (Text.join "/" parts)

/-- The path of the directory that holds the last segment. -/
def dir (path : String) : String :=
  match Text.cutLast "/" path with
  | some (before, _) => clean (before ++ "/")
  | none => "."

/-- The last segment. -/
def base (path : String) : String :=
  if path = "" then "."
  else
    match Text.trimEndChar '/' path with
    | "" => "/"
    | path =>
      match Text.cutLast "/" path with
      | some (_, last) => last
      | none => path

/-- The last segment from its last dot on, dot included; empty when it has none. -/
def ext (path : String) : String :=
  match Text.cutLast "." ((segments path).getLast?.getD "") with
  | some (_, tail) => "." ++ tail
  | none => ""

/-- `path` as seen from the absolute directory `cwd`. -/
def absolute (cwd path : String) : String :=
  if isAbsolute path then clean path else join [cwd, path]

/-- How two segment lists part: what is left of each after the segments they share. -/
def dropShared : List String → List String → List String × List String
  | a :: as, b :: bs => if a = b then dropShared as bs else (a :: as, b :: bs)
  | as, bs => (as, bs)

/-- The path that leads from the absolute directory `origin` to the absolute path `target`. -/
def relative (origin target : String) : String :=
  let parted := dropShared (cleanSegments true [] (segments origin)) (cleanSegments true [] (segments target))
  match parted.1.map (fun _ => "..") ++ parted.2 with
  | [] => "."
  | steps => Text.join "/" steps

/-- `path` without `root` and the slash after it, for display. A path outside `root` stays. -/
def within (root path : String) : String :=
  if root = "" then path
  else
    let lead := Text.trimEndChar '/' root ++ "/"
    if !Text.startsWith path lead || path.length = lead.length then path
    else Text.dropStart lead path

end ShopLint.Path
