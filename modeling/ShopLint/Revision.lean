import ShopLint.Host
import ShopLint.Text.Case
import ShopLint.Text.Line

/-!
The revision of a source tree under version control, read from the files of its Git repository: the
branch and commit that are checked out and the address of the remote named `origin`. No objects are
read.
-/

namespace ShopLint

/-- `root` is the top of the repository, and `subfolder` the way from there to what was asked for. -/
structure Revision where
  branch : String := ""
  commit : String := ""
  remote : String := ""
  root : String := ""
  subfolder : String := ""
  deriving DecidableEq, Repr, Inhabited

inductive RevisionError
  | noPath
  | notRepository
  deriving DecidableEq, Repr

def RevisionError.message : RevisionError → String
  | noPath => "source folder is not set"
  | notRepository => "source folder is not a git repository"

namespace Revision

/-- What a name in a repository refers to: another name, or a commit. -/
inductive Reference
  | name (target : String)
  | commit (hash : String)
  deriving DecidableEq, Repr

/-- Twenty bytes in hexadecimal digits. -/
def hashLength : Nat := 40

def isHexDigit (c : Char) : Bool :=
  ('0' ≤ c && c ≤ '9') || ('a' ≤ c && c ≤ 'f') || ('A' ≤ c && c ≤ 'F')

/-- The hash that a text starts with, in lower case; what is missing is filled with zeros. -/
def hashOf (text : String) : String :=
  let digits := (text.toList.take hashLength).takeWhile isHexDigit
  let digits := (digits.take (digits.length / 2 * 2)).map Char.toLower
  String.ofList (digits ++ List.replicate (hashLength - digits.length) '0')

def referenceOf (text : String) : Reference :=
  if Text.startsWith text "ref: " then .name (Text.dropStart "ref: " text) else .commit (hashOf text)

/-- A reference in a file of its own. -/
def looseReference? (host : Host) (dir name : String) : Option Reference :=
  match host.read (Path.join [dir, name]) with
  | .ok "" => none
  | .ok content => some (referenceOf (Text.trim content))
  | .error _ => none

/-- A reference among the lines of the file that lists many; a malformed line hides those after it. -/
def packedIn? (name : String) : List String → Option Reference
  | [] => none
  | line :: rest =>
    if line = "" || Text.startsWith line "#" || Text.startsWith line "^" then packedIn? name rest
    else
      match Text.splitOn ' ' line with
      | [target, found] => if found = name then some (referenceOf target) else packedIn? name rest
      | _ => none

def packedReference? (host : Host) (dir name : String) : Option Reference :=
  match host.read (Path.join [dir, "packed-refs"]) with
  | .ok content => packedIn? name ((splitLines content.toList).map String.ofList)
  | .error _ => none

def reference? (host : Host) (dir name : String) : Option Reference :=
  (looseReference? host dir name).orElse fun _ => packedReference? host dir name

/-- How many names may lead to one another. -/
def maxNames : Nat := 1024

/-- The last name and the commit that a name leads to. -/
def resolve? (host : Host) (dir : String) : Nat → String → Option (String × String)
  | 0, _ => none
  | fuel + 1, name =>
    match reference? host dir name with
    | some (.commit hash) => some (name, hash)
    | some (.name target) => resolve? host dir fuel target
    | none => none

/-- The directory that holds the data of a repository at `folder`: its `.git` directory, the one that a
`.git` file names, or the folder itself. -/
def dataDir? (host : Host) (folder : String) : Option String :=
  let inside := Path.join [folder, ".git"]
  match host.entryAt inside with
  | .ok (.dir _) => some inside
  | .ok (.file bytes) =>
    let content := Utf8.decode Utf8.replacement bytes
    if Text.startsWith content "gitdir: " then
      let target := Text.trim (((Text.splitOn '\n' (Text.dropStart "gitdir: " content)).head?).getD "")
      some (if Path.isAbsolute target then target else Path.join [folder, target])
    else none
  | .ok _ => none
  | .error cause => if cause = .noEntry then some folder else none

/-- The data of the repository at `folder`, if there is one: it tells what is checked out. -/
def repositoryAt? (host : Host) (folder : String) : Option String :=
  (dataDir? host folder).filter fun dir => (reference? host dir "HEAD").isSome

/-- The nearest repository at or above a folder, with its data; `fuel` bounds the climb. -/
def enclosing? (host : Host) : Nat → String → Option (String × String)
  | 0, _ => none
  | fuel + 1, folder =>
    match repositoryAt? host folder with
    | some dir => some (folder, dir)
    | none => if Path.dir folder = folder then none else enclosing? host fuel (Path.dir folder)

/-- The short name of a branch; none when the name is not that of a branch. -/
def branchOf? (name : String) : Option String :=
  (Chars.after? "refs/heads/".toList name.toList).map fun rest =>
    String.ofList (rest.takeWhile fun c => !isBlank c)

/-- A line of a configuration file: the head of a section, or a key and its value. -/
inductive ConfigLine
  | head (name sub : String)
  | value (key text : String)
  | blank

/-- A value with its quotes and escapes resolved, up to a comment. -/
def configValue? (quoted : Bool) : List Char → Option (List Char)
  | [] => if quoted then none else some []
  | '\\' :: 'n' :: rest => (configValue? quoted rest).map ('\n' :: ·)
  | '\\' :: 't' :: rest => (configValue? quoted rest).map ('\t' :: ·)
  | '\\' :: '"' :: rest => (configValue? quoted rest).map ('"' :: ·)
  | '\\' :: '\\' :: rest => (configValue? quoted rest).map ('\\' :: ·)
  | '\\' :: _ => none
  | '"' :: rest => configValue? (!quoted) rest
  | c :: rest =>
    if !quoted && (c = '#' || c = ';') then some []
    else (configValue? quoted rest).map (c :: ·)

/-- The name of a subsection in quotes. -/
def configSub? : List Char → Option (List Char × List Char)
  | [] => none
  | '"' :: rest => some ([], rest)
  | '\\' :: c :: rest => (configSub? rest).map fun p => (c :: p.1, p.2)
  | c :: rest => (configSub? rest).map fun p => (c :: p.1, p.2)

def isKeyChar (c : Char) : Bool := c.isAlphanum || c = '-' || c = '.'

/-- What follows the head of a section on its line must be a comment. -/
def isRemark (text : List Char) : Bool :=
  match text.dropWhile isBlank with
  | [] => true
  | c :: _ => c = '#' || c = ';'

def configHead? (text : List Char) : Option ConfigLine :=
  let name := text.takeWhile isKeyChar
  let rest := (text.drop name.length).dropWhile isBlank
  if name.isEmpty then none
  else
    match rest with
    | ']' :: more => if isRemark more then some (.head (String.ofList name) "") else none
    | '"' :: more =>
      match configSub? more with
      | some (sub, ']' :: more) =>
        if isRemark more then some (.head (String.ofList name) (String.ofList sub)) else none
      | _ => none
    | _ => none

def configLine? (line : List Char) : Option ConfigLine :=
  match line.dropWhile isBlank with
  | [] => some .blank
  | '[' :: rest => configHead? rest
  | c :: rest =>
    if c = '#' || c = ';' then some .blank
    else
      let key := (c :: rest).takeWhile isKeyChar
      let after := ((c :: rest).drop key.length).dropWhile isBlank
      if key.isEmpty || !c.isAlpha then none
      else
        match after with
        | '=' :: text =>
          (configValue? false (text.dropWhile isBlank)).map fun v =>
            .value (String.ofList key) (String.ofList (Chars.dropRightWhile isBlank v))
        | _ => if isRemark after then some (.value (String.ofList key) "") else none

/-- One setting of a configuration file. -/
structure ConfigEntry where
  name : String
  sub : String
  key : String
  text : String

/-- The settings of some lines that follow the head of a section. -/
def configEntries (name sub : String) : List ConfigLine → List ConfigEntry
  | [] => []
  | .blank :: rest => configEntries name sub rest
  | .head name sub :: rest => configEntries name sub rest
  | .value key text :: rest => ⟨name, sub, key, text⟩ :: configEntries name sub rest

def configOf? (content : String) : Option (List ConfigEntry) :=
  ((splitLines content.toList).mapM configLine?).map (configEntries "" "")

def ConfigEntry.isOfRemote (e : ConfigEntry) : Bool := Text.equalFold e.name "remote"

/-- A rule of what to fetch has two sides, with one wildcard on each or on neither. -/
def isFetchRule (rule : String) : Bool :=
  match Text.splitOn ':' rule with
  | [source, target] =>
    let wildcards := source.toList.count '*'
    target ≠ "" && wildcards = target.toList.count '*' && wildcards < 2
  | _ => false

/-- Every remote has proper rules of what to fetch. -/
def areUsable (entries : List ConfigEntry) : Bool :=
  (entries.filter fun e => e.isOfRemote && Text.equalFold e.key "fetch").all fun e => isFetchRule e.text

/-- The addresses of a remote: those to read from, then those to write to. -/
def addresses (entries : List ConfigEntry) (remote : String) : List String :=
  let own := entries.filter fun e => e.isOfRemote && e.sub = remote
  let all (key : String) : List String := (own.filter fun e => Text.equalFold e.key key).map ConfigEntry.text
  all "url" ++ all "pushurl"

/-- The first address of the remote named `origin`, without its ending. -/
def originOf (host : Host) (dir : String) : String :=
  match host.read (Path.join [dir, "config"]) with
  | .error _ => ""
  | .ok content =>
    match ((configOf? content).filter areUsable).map (addresses · "origin") with
    | some (url :: _) => Text.dropEnd ".git" url
    | _ => ""

/-- The revision of the tree at a path. Its root is the path itself when there is no repository. -/
def ofPath (host : Host) (path : String) : Revision × Option RevisionError :=
  if path = "" then ({}, some .noPath)
  else
    let path := Path.absolute host.cwd path
    let start :=
      match host.entryAt path with
      | .ok (.dir _) => path
      | .ok _ => Path.dir path
      | .error _ => path
    match enclosing? host (path.length + 2) start with
    | none => ({ root := path }, some .notRepository)
    | some (root, dir) =>
      let subfolder := Path.relative root path
      let head := resolve? host dir maxNames "HEAD"
      ({ branch := ((head.bind fun h => branchOf? h.1)).getD ""
         commit := (head.map Prod.snd).getD ""
         remote := originOf host dir
         root := root
         subfolder := if subfolder = "." then "" else subfolder }, none)

end Revision

end ShopLint
