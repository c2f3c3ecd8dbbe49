import ShopLint.Yaml.Token

/-!
YAML documents as trees. An alias stands for a copy of what its anchor marks.
-/

namespace ShopLint.Yaml

/-- `isPlain` scalars have a meaning beyond their text; an empty `tag` means none was given. -/
inductive Node
  | scalar (tag : String) (text : String) (isPlain : Bool)
  | sequence (tag : String) (items : List Node)
  | mapping (tag : String) (entries : List (Node × Node))

namespace Node

/-- A value that was left out. -/
def missing : Node := scalar "" "" true

/-- What the reading of nodes needs to know: the anchors so far and the handles of tags. -/
structure Context where
  anchors : List (String × Option Node) := []
  handles : List (String × String) := [("!", "!"), ("!!", "tag:yaml.org,2002:")]

abbrev Reading (α : Type) := StateT Context Option α

/-- The full tag of a handle and suffix. -/
def fullTag (handle suffix : String) : Reading String := do
  if handle = "" then return suffix
  match (← get).handles.lookup handle with
  | some lead => return lead ++ suffix
  | none => failure

/-- An anchor whose node is being read; an alias to it is an error. -/
def openAnchor (name : String) : Reading Unit :=
  if name = "" then pure () else modify fun c => { c with anchors := (name, none) :: c.anchors }

def setAnchor (name : String) (node : Node) : Reading Unit :=
  if name = "" then pure () else modify fun c => { c with anchors := (name, some node) :: c.anchors }

def aliased (name : String) : Reading Node := do
  match (← get).anchors.lookup name with
  | some (some node) => return node
  | _ => failure

/-- The anchor and tag before a node, in either order. -/
def properties (tokens : List Token) : Reading (String × String × List Token) := do
  match tokens with
  | .anchor a :: .tag h s :: rest => return (a, ← fullTag h s, rest)
  | .anchor a :: rest => return (a, "", rest)
  | .tag h s :: .anchor a :: rest => return (a, ← fullTag h s, rest)
  | .tag h s :: rest => return ("", ← fullTag h s, rest)
  | rest => return ("", "", rest)

/-- A scalar with its tag, beside which it does not count as plain. -/
def ofScalar (tag text : String) (isPlain : Bool) : Node := scalar tag text (isPlain && tag = "")

mutual

/-- A node. In `block` context collections may be marked by indentation, and `indentless` ones may go on
at the column of their parent. -/
def node (fuel : Nat) (block indentless : Bool) (tokens : List Token) : Reading (Node × List Token) :=
  match fuel with
  | 0 => failure
  | fuel + 1 =>
    match tokens with
    | .copy name :: rest => do return (← aliased name, rest)
    | _ => do
      let (anchor, tag, rest) ← properties tokens
      openAnchor anchor
      let (found, rest) ← content fuel block indentless tag (anchor ≠ "" || tag ≠ "") rest
      setAnchor anchor found
      return (found, rest)

/-- What follows the properties of a node; after some it may be missing. -/
def content (fuel : Nat) (block indentless : Bool) (tag : String) (mayMiss : Bool) (tokens : List Token) :
    Reading (Node × List Token) :=
  match fuel with
  | 0 => failure
  | fuel + 1 =>
    match tokens with
    | .blockEntry :: _ =>
      if indentless then do
        let (items, rest) ← indentlessItems fuel tokens
        return (sequence tag items, rest)
      else if mayMiss then return (ofScalar tag "" true, tokens)
      else failure
    | .scalar text isPlain :: rest => return (ofScalar tag text isPlain, rest)
    | .flowSequence :: rest => do
      let (items, rest) ← flowItems fuel true rest
      return (sequence tag items, rest)
    | .flowMapping :: rest => do
      let (entries, rest) ← flowEntries fuel true rest
      return (mapping tag entries, rest)
    | .blockSequence :: rest =>
      if block then do
        let (items, rest) ← blockItems fuel rest
        return (sequence tag items, rest)
      else if mayMiss then return (ofScalar tag "" true, tokens)
      else failure
    | .blockMapping :: rest =>
      if block then do
        let (entries, rest) ← blockEntries fuel rest
        return (mapping tag entries, rest)
      else if mayMiss then return (ofScalar tag "" true, tokens)
      else failure
    | _ => if mayMiss then return (ofScalar tag "" true, tokens) else failure

def blockItems (fuel : Nat) (tokens : List Token) : Reading (List Node × List Token) :=
  match fuel with
  | 0 => failure
  | fuel + 1 =>
    match tokens with
    | .blockEnd :: rest => return ([], rest)
    | .blockEntry :: rest =>
      match rest with
      | .blockEntry :: _ | .blockEnd :: _ => do
        let (items, rest) ← blockItems fuel rest
        return (missing :: items, rest)
      | _ => do
        let (item, rest) ← node fuel true false rest
        let (items, rest) ← blockItems fuel rest
        return (item :: items, rest)
    | _ => failure

/-- The items of a sequence that is not indented; it has no end of its own. -/
def indentlessItems (fuel : Nat) (tokens : List Token) : Reading (List Node × List Token) :=
  match fuel with
  | 0 => failure
  | fuel + 1 =>
    match tokens with
    | .blockEntry :: rest =>
      match rest with
      | .blockEntry :: _ | .key :: _ | .value :: _ | .blockEnd :: _ => do
        let (items, rest) ← indentlessItems fuel rest
        return (missing :: items, rest)
      | _ => do
        let (item, rest) ← node fuel true false rest
        let (items, rest) ← indentlessItems fuel rest
        return (item :: items, rest)
    | _ => return ([], tokens)

def blockEntries (fuel : Nat) (tokens : List Token) : Reading (List (Node × Node) × List Token) :=
  match fuel with
  | 0 => failure
  | fuel + 1 =>
    match tokens with
    | .blockEnd :: rest => return ([], rest)
    | .key :: rest => do
      let (key, rest) ← blockPart fuel rest
      let (value, rest) ←
        match rest with
        | .value :: rest => blockPart fuel rest
        | _ => pure (missing, rest)
      let (entries, rest) ← blockEntries fuel rest
      return ((key, value) :: entries, rest)
    | _ => failure

/-- A key or value of a block mapping, which may be missing. -/
def blockPart (fuel : Nat) (tokens : List Token) : Reading (Node × List Token) :=
  match fuel with
  | 0 => failure
  | fuel + 1 =>
    match tokens with
    | .key :: _ | .value :: _ | .blockEnd :: _ => return (missing, tokens)
    | _ => node fuel true true tokens

/-- A key or value in brackets up to the given end, which may be missing. -/
def flowPart (fuel : Nat) (isKey : Bool) (close : Token) (tokens : List Token) :
    Reading (Node × List Token) :=
  match fuel with
  | 0 => failure
  | fuel + 1 =>
    match tokens with
    | .flowEntry :: _ => return (missing, tokens)
    | t :: _ =>
      if t = close || (isKey && t = .value) then return (missing, tokens) else node fuel false false tokens
    | [] => failure

/-- A key and its value in brackets, read after the sign of a key. -/
def flowPair (fuel : Nat) (close : Token) (tokens : List Token) : Reading ((Node × Node) × List Token) :=
  match fuel with
  | 0 => failure
  | fuel + 1 => do
    let (key, rest) ← flowPart fuel true close tokens
    match rest with
    | .value :: rest =>
      let (value, rest) ← flowPart fuel false close rest
      return ((key, value), rest)
    | _ => return ((key, missing), rest)

/-- The items up to a closing bracket. A comma stands before each but the `first`, and may stand before
the bracket. -/
def flowItems (fuel : Nat) (first : Bool) (tokens : List Token) : Reading (List Node × List Token) :=
  match fuel with
  | 0 => failure
  | fuel + 1 =>
    match tokens with
    | .flowSequenceEnd :: rest => return ([], rest)
    | _ => do
      let rest ←
        match first, tokens with
        | true, _ => pure tokens
        | false, .flowEntry :: rest => pure rest
        | false, _ => failure
      match rest with
      | .flowSequenceEnd :: rest => return ([], rest)
      | .key :: rest =>
        let (pair, rest) ← flowPair fuel .flowSequenceEnd rest
        let (items, rest) ← flowItems fuel false rest
        return (mapping "" [pair] :: items, rest)
      | _ =>
        let (item, rest) ← node fuel false false rest
        let (items, rest) ← flowItems fuel false rest
        return (item :: items, rest)

def flowEntries (fuel : Nat) (first : Bool) (tokens : List Token) :
    Reading (List (Node × Node) × List Token) :=
  match fuel with
  | 0 => failure
  | fuel + 1 =>
    match tokens with
    | .flowMappingEnd :: rest => return ([], rest)
    | _ => do
      let rest ←
        match first, tokens with
        | true, _ => pure tokens
        | false, .flowEntry :: rest => pure rest
        | false, _ => failure
      match rest with
      | .flowMappingEnd :: rest => return ([], rest)
      | .key :: rest =>
        let (pair, rest) ← flowPair fuel .flowMappingEnd rest
        let (entries, rest) ← flowEntries fuel false rest
        return (pair :: entries, rest)
      | _ =>
        let (key, rest) ← node fuel false false rest
        let (entries, rest) ← flowEntries fuel false rest
        return ((key, missing) :: entries, rest)

end

/-- The directives before a document; the version may be given once and is 1.1. -/
def directives (versioned : Bool) : List Token → Reading (Bool × List Token)
  | .version major minor :: rest =>
    if versioned || major ≠ 1 || minor ≠ 1 then failure else directives true rest
  | .tagHandle handle lead :: rest => do
    if (← get).handles.any (fun h => h.1 = handle && 2 < handle.length) then failure
    modify fun c => { c with handles := (handle, lead) :: c.handles }
    directives versioned rest
  | rest => return (versioned, rest)

/-- The root of a document, which may be missing after a mark. -/
def root (tokens : List Token) : Reading Node := do
  let (_, rest) ← directives false tokens
  match rest with
  | .documentStart :: rest =>
    match rest with
    | .streamEnd :: _ | .documentStart :: _ | .documentEnd :: _ | .version .. :: _ | .tagHandle .. :: _ =>
      return missing
    | _ => return (← node (4 * rest.length + 4) true false rest).1
  | _ =>
    if rest.length ≠ tokens.length then failure
    else return (← node (4 * rest.length + 4) true false rest).1

/-- What a text holds. -/
inductive Document
  | absent
  | malformed
  | holds (node : Node)

/-- The first document of a text; a text without any content has none. -/
def read (text : List Char) : Document :=
  if !text.all isAllowed then .malformed
  else
    match tokensOf text with
    | [.streamEnd] => .absent
    | tokens =>
      match (root tokens).run {} with
      | some (node, _) => .holds node
      | none => .malformed

end Node

end ShopLint.Yaml
