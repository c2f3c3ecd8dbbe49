import ShopLint.Dict
import ShopLint.FileTree
import ShopLint.Text.Quoted

/-!
The machine that a scan runs on: its files, its working directory and its environment variables, and
what only shows while a scan runs: in which order imports are gone through, and what the disk makes of
writing.
-/

namespace ShopLint

/-- What takes something written: what arrives of it, and why not all of it did. -/
structure Sink (α ε : Type) where
  take : α → α × Option ε
  complete : ∀ written, (take written).2 = none → (take written).1 = written

/-- Everything arrives. -/
def Sink.reliable {α ε : Type} : Sink α ε := ⟨fun written => (written, none), fun _ _ => rfl⟩

/-- A class name that a scan looks up among the imports of a file, by where it is met: as the parent of
the first class of a file, as the type of a constructor parameter of the file that a rule comes to at
some turn, or as one of the interfaces of a class that a rule asks about for such a parameter. -/
inductive LookUp
  | parent (file : String)
  | parameter (rule : String) (turn place : Nat)
  | interface (turn place : Nat) (className : String) (number : Nat)

/-- Imports are gone through in an order that is up to the machine, at each look-up anew. The disk may
refuse that something is made or opened at the end of the given names, and may not take all that is
written there. -/
structure Host where
  tree : Entry
  cwd : String
  env : Dict String
  order : LookUp → Dict.Listing String := fun _ => .sorted
  refuses : List String → Option Errno := fun _ => none
  sink : List String → Sink (List UInt8) Errno := fun _ => .reliable

/-- A file operation that failed. -/
structure FileError where
  operation : String
  path : String
  cause : Errno
  deriving DecidableEq, Repr

def FileError.message (e : FileError) : String := s!"{e.operation} {e.path}: {e.cause.text}"

/-- The path of an operation cannot be made absolute: it starts at the home directory, and there is
none. -/
structure HomeError where
  path : String
  deriving DecidableEq, Repr

def homeMissing : String := "$HOME is not defined"

def HomeError.message (e : HomeError) : String :=
  s!"failed to expand path {Text.quote e.path}: {homeMissing}"

namespace Host

/-- An environment variable, empty when it is not set. -/
def envVar (host : Host) (name : String) : String := (host.env.get? name).getD ""

/-- How many links one path may lead through. -/
def linkLimit : Nat := 40

/-- Where a path leads. The last link is followed only if `follow` holds. -/
def place (host : Host) (follow : Bool) (path : String) : Except Errno Place :=
  if path = "" then .error .noEntry
  else if path.toList.contains '\x00' then .error .invalid
  else if 4096 ≤ path.utf8ByteSize then .error .nameTooLong
  else
    let start := if Path.isAbsolute path then [] else (Path.segments host.cwd).filter (· ≠ "")
    host.tree.locate follow linkLimit start (Path.segments path)

/-- The entry that a path leads to, with every link followed. -/
def entryAt (host : Host) (path : String) : Except Errno Entry :=
  match host.place true path with
  | .ok (.found _ entry) => .ok entry
  | .ok (.absent _) => .error .noEntry
  | .error cause => .error cause

/-- The entry that a path leads to, which may be a link. -/
def linkAt (host : Host) (path : String) : Except Errno Entry :=
  match host.place false path with
  | .ok (.found _ entry) => .ok entry
  | .ok (.absent _) => .error .noEntry
  | .error cause => .error cause

def stat (host : Host) (path : String) : Except FileError Entry :=
  (host.entryAt path).mapError fun cause => ⟨"stat", path, cause⟩

def isDirAt (host : Host) (path : String) : Bool :=
  match host.entryAt path with
  | .ok entry => entry.isDir
  | .error _ => false

def isFileAt (host : Host) (path : String) : Bool :=
  match host.entryAt path with
  | .ok entry => entry.isFile
  | .error _ => false

def existsAt (host : Host) (path : String) : Bool :=
  match host.entryAt path with
  | .ok _ => true
  | .error _ => false

/-- The bytes of a file; a device has none. -/
def bytes (host : Host) (path : String) : Except FileError (List UInt8) :=
  match host.entryAt path with
  | .ok (.file bytes) => .ok bytes
  | .ok (.dir _) => .error ⟨"read", path, .isDirectory⟩
  | .ok _ => .ok []
  | .error cause => .error ⟨"open", path, cause⟩

/-- The content of a file. -/
def read (host : Host) (path : String) : Except FileError String :=
  (host.bytes path).map (Utf8.decode Utf8.replacement)

/-- The content of a file that is to hold a document. Where it is no text, it has a character that no
document may hold. -/
def readDocument (host : Host) (path : String) : Except FileError String :=
  (host.bytes path).map (Utf8.decode Utf8.noncharacter)

/-- The content of a file, empty when it cannot be read. -/
def readOrEmpty (host : Host) (path : String) : String :=
  match host.read path with
  | .ok content => content
  | .error _ => ""

/-- A path with a leading `~/` replaced by the home directory. -/
def expand? (host : Host) (path : String) : Option String :=
  if Text.startsWith path "~/" then
    let home := host.envVar "HOME"
    if home = "" then none else some (Path.join [home, Text.dropStart "~/" path])
  else some path

/-- The absolute path that `path` stands for. -/
def absolute (host : Host) (path : String) : Except HomeError String :=
  match host.expand? path with
  | some path => .ok (Path.absolute host.cwd path)
  | none => .error ⟨path⟩

/-- A new directory whose parent exists. -/
def mkdir (host : Host) (path : String) : Except FileError Host :=
  match host.place false (Text.trimEndChar '/' path) with
  | .ok (.absent names) =>
    match host.refuses names with
    | some cause => .error ⟨"mkdir", path, cause⟩
    | none => .ok { host with tree := host.tree.put names (.dir []) }
  | .ok (.found ..) => .error ⟨"mkdir", path, .alreadyExists⟩
  | .error cause => .error ⟨"mkdir", path, cause⟩

/-- A directory whose parent exists, new unless it has been there. -/
def mkdirUnlessDir (host : Host) (path : String) : Except FileError Host :=
  match host.mkdir path with
  | .ok host => .ok host
  | .error e =>
    match host.linkAt path with
    | .ok (.dir _) => .ok host
    | _ => .error e

/-- What a change left of the host, and why it failed half-way if it did. -/
abbrev Changed (ε : Type) := Host × Option ε

/-- The change `next` after one that may have failed. -/
def Changed.andThen {ε : Type} (first : Changed ε) (next : Host → Changed ε) : Changed ε :=
  match first with
  | (host, some e) => (host, some e)
  | (host, none) => next host

/-- The host as it was, where a change failed altogether. -/
def changed {ε : Type} (host : Host) : Except ε Host → Changed ε
  | .ok host => (host, none)
  | .error e => (host, some e)

/-- A directory with all directories above it; `depth` bounds the number of those. -/
def mkdirAllUpTo (depth : Nat) (host : Host) (path : String) : Changed FileError :=
  match host.entryAt path with
  | .ok entry => (host, if entry.isDir then none else some ⟨"mkdir", path, .notDirectory⟩)
  | .error _ =>
    match depth with
    | 0 => host.changed (host.mkdir path)
    | depth + 1 =>
      match (Text.cutLast "/" (Text.trimEndChar '/' path)).map Prod.fst with
      | none => host.changed (host.mkdirUnlessDir path)
      | some "" => host.changed (host.mkdirUnlessDir path)
      | some parent =>
        (mkdirAllUpTo depth host parent).andThen fun host => host.changed (host.mkdirUnlessDir path)

def mkdirAll (host : Host) (path : String) : Changed FileError :=
  mkdirAllUpTo path.length host path

/-- Why a folder or file could not be written. -/
inductive WriteError
  | checkFolder (folder : String) (cause : FileError)
  | createFolder (folder : String) (cause : FileError)
  | createFile (cause : FileError)
  | writeData (cause : FileError)
  | flushData (cause : FileError)
  deriving DecidableEq, Repr

def WriteError.message : WriteError → String
  | checkFolder folder cause => s!"unable to check folder {Text.quote folder}: {cause.message}"
  | createFolder folder cause => s!"unable to create folder {Text.quote folder}: {cause.message}"
  | createFile cause => s!"failed creating file: {cause.message}"
  | writeData cause => s!"error writing data to file: {cause.message}"
  | flushData cause => s!"error flushing data to file: {cause.message}"

/-- Makes a folder that does not exist yet. -/
def ensureFolder (host : Host) (folder : String) : Changed WriteError :=
  match host.stat folder with
  | .ok _ => (host, none)
  | .error e =>
    if e.cause = .noEntry then
      ((host.mkdirAll folder).1, (host.mkdirAll folder).2.map (.createFolder folder))
    else (host, some (.checkFolder folder e))

/-- How many bytes are gathered before they are passed on. More than that are passed on at once. -/
def bufferSize : Nat := 4096

/-- The failure to write bytes at a path. -/
def writeFailure (path : String) (bytes : List UInt8) (cause : Errno) : WriteError :=
  if bufferSize < bytes.length then .writeData ⟨"write", path, cause⟩
  else .flushData ⟨"write", path, cause⟩

/-- The place that a path opened for writing leads to. -/
def openPlace (host : Host) (path : String) : Except FileError Place :=
  match host.place true path with
  | .error cause => .error ⟨"open", path, cause⟩
  | .ok place =>
    if place.isDir then .error ⟨"open", path, .isDirectory⟩
    else
      match host.refuses place.names with
      | some cause => .error ⟨"open", path, cause⟩
      | none => .ok place

/-- What arrives of some bytes at a place. Nothing is asked of the disk when there are none. -/
def pour (host : Host) (names : List String) (bytes : List UInt8) : List UInt8 × Option Errno :=
  if bytes.isEmpty then ([], none) else (host.sink names).take bytes

/-- Replaces or creates a file whose folder exists. What does not arrive is missing from the file. -/
def put (host : Host) (path : String) (bytes : List UInt8) : Changed WriteError :=
  match host.openPlace path with
  | .error e => (host, some (.createFile e))
  | .ok place =>
    let (arrived, cause) := host.pour place.names bytes
    let host :=
      if place.isRoom then { host with tree := host.tree.put place.names (.file arrived) } else host
    (host, cause.map (writeFailure path bytes))

/-- Replaces or creates a file, with its folder. -/
def write (host : Host) (path content : String) : Changed WriteError :=
  (host.ensureFolder (Path.dir path)).andThen fun host => host.put path (Utf8.encode content)

/-- Removes what stands at a path, if anything does. -/
def remove (host : Host) (path : String) : Host :=
  match host.place false path with
  | .ok (.found names _) => { host with tree := host.tree.erase names }
  | _ => host

/-- Why a path does not name a readable file. -/
inductive NotAFile
  | unreachable (cause : FileError)
  | directory (path : String)
  | notRegular (path : String)
  deriving DecidableEq, Repr

def NotAFile.message : NotAFile → String
  | unreachable cause => s!"path stat error: {cause.message}"
  | directory path => s!"path {Text.quote path} is a directory, not a file"
  | notRegular path => s!"path {Text.quote path} is not a regular file"

def checkFile (host : Host) (path : String) : Except NotAFile Unit :=
  match host.stat path with
  | .error e => .error (.unreachable e)
  | .ok (.dir _) => .error (.directory path)
  | .ok (.file _) => .ok ()
  | .ok _ => .error (.notRegular path)

end Host

end ShopLint
