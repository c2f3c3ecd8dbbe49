import ShopLint.Json.Parser
import ShopLint.Json.Printer
import ShopLint.Number.Decimal
import ShopLint.Report.Basic
import ShopLint.Text.Case

/-!
Reports as JSON: one object with a member per rule and one for the scan itself. Reading accepts keys
in any letter case, ignores those it does not know, and takes `null` for a field left out.
-/

namespace ShopLint

open Json (Value)

/-- A member that is left out when its text is empty. -/
def textMember? (key text : String) : List (String × Value) :=
  if text = "" then [] else [(key, .string text)]

def Occurrence.toJson (o : Occurrence) : Value :=
  .object ([("file", .string o.file), ("startLine", .int o.startLine), ("endLine", .int o.endLine),
    ("message", .string o.message)] ++ textMember? "severity" o.severity.name ++
    (if o.metadata.isEmpty then [] else [("metadata", .object o.metadata)]))

def Finding.toJson (f : Finding) : Value :=
  .object [("ruleId", .string f.ruleId), ("name", .string f.name),
    ("shortDescription", .string f.shortDescription), ("longDescription", .string f.longDescription),
    ("files", match f.listed with
      | some occurrences => .array (occurrences.map Occurrence.toJson)
      | none => .null)]

def ScanInfo.toJson (info : ScanInfo) : Value :=
  .object (textMember? "scanId" info.scanId ++ [("path", .string info.path),
    ("generatedAt", .string info.generatedAt.text)] ++ textMember? "toolVersion" info.toolVersion ++
    textMember? "branch" info.branch ++ textMember? "commit" info.commit)

/-- The members in the order of their keys, the scan's own among them. -/
def Report.toJson (report : Report) : Value :=
  .object ((report.findings.map Finding.toJson).insert Report.infoKey report.info.toJson).entries

/-- A number literal that is an integer of 64 bits. -/
def integer? (literal : String) : Option Int :=
  let (negative, digits) :=
    match literal.toList with
    | '-' :: ds => (true, ds)
    | ds => (false, ds)
  if digits.isEmpty || !digits.all Decimal.isDigitChar then none
  else
    let n : Int := Decimal.ofDigits digits
    let n := if negative then -n else n
    if Word.isSigned n then some n else none

/-- The text in a member; `null` leaves what was there. -/
def readText (old : String) : Value → Option String
  | .null => some old
  | .string text => some text
  | _ => none

def readInt (old : Int) : Value → Option Int
  | .null => some old
  | .number literal => integer? literal
  | _ => none

def readTime (old : Instant) : Value → Option Instant
  | .null => some old
  | .string text => Instant.parse? text
  | _ => none

/-- Applies the members of an object one after the other; `null` changes nothing. -/
def readObject {α : Type} (set : α → String → Value → Option α) (old : α) : Value → Option α
  | .null => some old
  | .object members => members.foldlM (fun acc m => set acc m.1 m.2) old
  | _ => none

/-- The field of `fields` that a key means: the one spelled so, else one spelled so but for case. -/
def fieldOf (fields : List String) (key : String) : Option String :=
  match fields.find? (· = key) with
  | some field => some field
  | none => fields.find? fun field => Text.equalFold field key

/-- Data by key read over older data, whose other keys stay. -/
def readMetadata (old : List (String × Value)) : Value → Option (List (String × Value))
  | .null => some []
  | .object members => (Value.normalMembers? members).map fun ms => (Dict.ofList (old ++ ms)).entries
  | _ => none

namespace Occurrence

def fields : List String := ["file", "startLine", "endLine", "message", "severity", "metadata"]

def setMember (o : Occurrence) (key : String) (v : Value) : Option Occurrence :=
  match fieldOf fields key with
  | some "file" => (readText o.file v).map fun t => { o with file := t }
  | some "startLine" => (readInt o.startLine v).map fun n => { o with startLine := n }
  | some "endLine" => (readInt o.endLine v).map fun n => { o with endLine := n }
  | some "message" => (readText o.message v).map fun t => { o with message := t }
  | some "severity" => (readText o.severity.name v).map fun t => { o with severity := ⟨t⟩ }
  | some "metadata" => (readMetadata o.metadata v).map fun m => { o with metadata := m }
  | _ => some o

def ofJson (old : Occurrence) (v : Value) : Option Occurrence := readObject setMember old v

/-- A list read over an older one: each item is read over the one in its place. -/
def listOfJson (old : List Occurrence) : List Value → Option (List Occurrence)
  | [] => some []
  | v :: vs => do return (← ofJson (old.headD {}) v) :: (← listOfJson old.tail vs)

end Occurrence

namespace Finding

def fields : List String := ["ruleId", "name", "shortDescription", "longDescription", "files"]

def readFiles (old : Option (List Occurrence)) : Value → Option (Option (List Occurrence))
  | .null => some none
  | .array items => (Occurrence.listOfJson (old.getD []) items).map some
  | _ => none

def setMember (f : Finding) (key : String) (v : Value) : Option Finding :=
  match fieldOf fields key with
  | some "ruleId" => (readText f.ruleId v).map fun t => { f with ruleId := t }
  | some "name" => (readText f.name v).map fun t => { f with name := t }
  | some "shortDescription" => (readText f.shortDescription v).map fun t => { f with shortDescription := t }
  | some "longDescription" => (readText f.longDescription v).map fun t => { f with longDescription := t }
  | some "files" => (readFiles f.listed v).map fun l => { f with listed := l }
  | _ => some f

def ofJson (v : Value) : Option Finding := readObject setMember {} v

end Finding

namespace ScanInfo

def fields : List String := ["scanId", "path", "generatedAt", "toolVersion", "branch", "commit"]

def setMember (info : ScanInfo) (key : String) (v : Value) : Option ScanInfo :=
  match fieldOf fields key with
  | some "scanId" => (readText info.scanId v).map fun t => { info with scanId := t }
  | some "path" => (readText info.path v).map fun t => { info with path := t }
  | some "generatedAt" => (readTime info.generatedAt v).map fun t => { info with generatedAt := t }
  | some "toolVersion" => (readText info.toolVersion v).map fun t => { info with toolVersion := t }
  | some "branch" => (readText info.branch v).map fun t => { info with branch := t }
  | some "commit" => (readText info.commit v).map fun t => { info with commit := t }
  | _ => some info

def ofJson (v : Value) : Option ScanInfo := readObject setMember {} v

end ScanInfo

namespace Report

/-- Why a text is not a report. -/
inductive DecodeError
  | notAnObject
  | scanInfo
  | finding (key : String)
  deriving DecidableEq, Repr

/-- One member of the report's object. -/
def setMember (report : Report) (key : String) (v : Value) : Except DecodeError Report :=
  if key = infoKey then
    match ScanInfo.ofJson v with
    | some info => .ok { report with info := info }
    | none => .error .scanInfo
  else
    match Finding.ofJson v with
    | some f => .ok { report with findings := report.findings.insert key f }
    | none => .error (.finding key)

def ofJson : Value → Except DecodeError Report
  | .null => .ok {}
  | .object members =>
    (Dict.ofList members).entries.foldlM (fun report m => report.setMember m.1 m.2) {}
  | _ => .error .notAnObject

/-- The report that a text holds. -/
def parse (text : String) : Except DecodeError Report :=
  match Json.parse? text.toList with
  | some v => ofJson v
  | none => .error .notAnObject

end Report

end ShopLint
