import ShopLint.Path
import ShopLint.Text.Utf8

/-!
File trees: directories, regular files, devices and symbolic links, and how a path leads to one of
them. Entries of a directory are kept in the order of their names.
-/

namespace ShopLint

/-- What a directory can hold. -/
inductive Entry
  | file (bytes : List UInt8)
  | device
  | link (target : String)
  | dir (entries : List (String × Entry))

namespace Entry

def isDir : Entry → Bool
  | dir _ => true
  | _ => false

def isFile : Entry → Bool
  | file _ => true
  | _ => false

/-- A file that holds a text. -/
def text (content : String) : Entry := file (Utf8.encode content)

/-- The entries of a directory; anything else has none. -/
def entries : Entry → List (String × Entry)
  | dir entries => entries
  | _ => []

/-- `entries` with `name` set, in the order of the names. -/
def putIn (name : String) (entry : Entry) : List (String × Entry) → List (String × Entry)
  | [] => [(name, entry)]
  | (n, e) :: rest =>
    if name < n then (name, entry) :: (n, e) :: rest
    else if name = n then (name, entry) :: rest
    else (n, e) :: putIn name entry rest

/-- The entry that plain descent by names leads to; links are not followed. -/
def at? (entry : Entry) : List String → Option Entry
  | [] => some entry
  | name :: names => (entry.entries.lookup name).bind fun e => e.at? names

/-- The tree with `entry` at the given names; missing directories are made on the way. -/
def put (tree : Entry) (names : List String) (entry : Entry) : Entry :=
  match names with
  | [] => entry
  | name :: names =>
    dir (putIn name (((tree.entries.lookup name).getD (dir [])).put names entry) tree.entries)

/-- The tree without what stands at the given names. -/
def erase (tree : Entry) : List String → Entry
  | [] => tree
  | [name] => dir (tree.entries.filter (·.1 ≠ name))
  | name :: names =>
    match tree.entries.lookup name with
    | some sub => dir (putIn name (sub.erase names) tree.entries)
    | none => tree

end Entry

/-- Why a path leads nowhere, or cannot be used as asked. A fault of the disk, such as one that is
full or may not be written to, is known by its text. -/
inductive Errno
  | noEntry
  | notDirectory
  | isDirectory
  | alreadyExists
  | tooManyLinks
  | nameTooLong
  | invalid
  | fault (text : String)
  deriving DecidableEq, Repr

def Errno.text : Errno → String
  | noEntry => "no such file or directory"
  | notDirectory => "not a directory"
  | isDirectory => "is a directory"
  | alreadyExists => "file exists"
  | tooManyLinks => "too many levels of symbolic links"
  | nameTooLong => "file name too long"
  | invalid => "invalid argument"
  | fault text => text

/-- Where a path leads: to an entry, or to a free name in a directory. The names are those of plain
descent from the top. -/
inductive Place
  | found (names : List String) (entry : Entry)
  | absent (names : List String)

namespace Place

def names : Place → List String
  | found names _ | absent names => names

def entry? : Place → Option Entry
  | found _ entry => some entry
  | absent _ => none

def isDir (place : Place) : Bool := place.entry?.any Entry.isDir

/-- A file can be put at the place: nothing is there, or another file. -/
def isRoom (place : Place) : Bool := place.entry?.all Entry.isFile

end Place

/-- Follows `todo` from the directory `here`. A link on the way is always followed, a link at the end
only if `follow` holds; at most `links` of them. -/
def Entry.locate (tree : Entry) (follow : Bool) (links : Nat) (here todo : List String) :
    Except Errno Place :=
  match todo with
  | [] =>
    match tree.at? here with
    | some entry => .ok (.found here entry)
    | none => .error .noEntry
  | name :: rest =>
    if name = "" || name = "." then tree.locate follow links here rest
    else if name = ".." then tree.locate follow links here.dropLast rest
    else if 255 < name.utf8ByteSize then .error .nameTooLong
    else
      match tree.at? (here ++ [name]) with
      | none => if rest.isEmpty then .ok (.absent (here ++ [name])) else .error .noEntry
      | some (.dir _) => tree.locate follow links (here ++ [name]) rest
      | some (.link target) =>
        if rest.isEmpty && !follow then .ok (.found (here ++ [name]) (.link target))
        else
          match links with
          | 0 => .error .tooManyLinks
          | links + 1 =>
            tree.locate follow links (if Path.isAbsolute target then [] else here)
              (Path.segments target ++ rest)
      | some entry =>
        if rest.isEmpty then .ok (.found (here ++ [name]) entry) else .error .notDirectory
termination_by (links, todo.length)

end ShopLint
