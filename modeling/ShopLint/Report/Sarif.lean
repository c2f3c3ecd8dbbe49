import ShopLint.Fingerprint
import ShopLint.Json.Printer
import ShopLint.Report.Basic
import ShopLint.Report.Encoding
import ShopLint.Report.Format
import ShopLint.Settings.Basic

/-!
Reports as logs in the Static Analysis Results Interchange Format, version 2.1.0: one run of the tool,
with an entry for each rule that found something and a result for each occurrence.
-/

namespace ShopLint.Sarif

open Json (Value)

structure RuleEntry where
  id : String
  name : String
  shortDescription : String
  fullDescription : String
  deriving DecidableEq, Repr

structure Result where
  properties : List (String × Value)
  ruleId : String
  ruleIndex : Nat
  level : Severity
  message : String
  file : String
  startLine : Int
  endLine : Int

structure Log where
  toolName : String
  informationUri : String
  toolVersion : String
  rules : List RuleEntry
  results : List Result

/-- The property that holds the fingerprint of the lines found. -/
def fingerprintKey : String := "snippetHash"

/-- The data of an occurrence and its fingerprint, in the order of their keys. -/
def propertiesOf (metadata : List (String × Value)) (fingerprint : String) : List (String × Value) :=
  (Dict.ofList (metadata ++ textMember? fingerprintKey fingerprint)).entries

/-- The result for an occurrence. Lines start at one and do not go backwards; an occurrence without
severity is a warning. -/
def Result.ofOccurrence (host : Host) (ruleId : String) (ruleIndex : Nat) (o : Occurrence) : Result :=
  let startLine := max o.startLine 1
  let endLine := max o.endLine startLine
  { properties := propertiesOf o.metadata (Fingerprint.ofFile host o.file startLine endLine)
    ruleId := ruleId, ruleIndex := ruleIndex, level := o.severity.orElse .warning
    message := o.message, file := o.file, startLine := startLine, endLine := endLine }

def RuleEntry.ofFinding (f : Finding) : RuleEntry :=
  { id := f.ruleId, name := f.name, shortDescription := f.shortDescription
    fullDescription := f.longDescription }

/-- The results of the findings, the first of which has the given index. -/
def resultsFrom (host : Host) (index : Nat) : List Finding → List Result
  | [] => []
  | f :: findings =>
    f.occurrences.map (Result.ofOccurrence host f.ruleId index) ++ resultsFrom host (index + 1) findings

def Log.ofReport (host : Host) (options : RenderOptions) (report : Report) : Log :=
  { toolName := Settings.orDefault options.toolName Settings.defaultToolName
    informationUri := Settings.orDefault options.informationUri Settings.defaultInformationUri
    toolVersion := Settings.orDefault options.toolVersion report.info.toolVersion
    rules := report.occurring.map RuleEntry.ofFinding
    results := resultsFrom host 0 report.occurring }

def schema : String :=
  "https://raw.githubusercontent.com/oasis-tcs/sarif-spec/main/sarif-2.1/schema/sarif-schema-2.1.0.json"

def messageJson (text : String) : Value := .object [("text", .string text)]

def RuleEntry.toJson (r : RuleEntry) : Value :=
  .object [("id", .string r.id), ("name", .string r.name),
    ("shortDescription", messageJson r.shortDescription), ("fullDescription", messageJson r.fullDescription)]

def Result.toJson (r : Result) : Value :=
  let region := Value.object [("startLine", .int r.startLine), ("endLine", .int r.endLine)]
  let place := Value.object [("artifactLocation", .object [("uri", .string r.file)]), ("region", region)]
  .object ((if r.properties.isEmpty then [] else [("properties", .object r.properties)]) ++
    [("ruleId", .string r.ruleId), ("ruleIndex", .nat r.ruleIndex), ("level", .string r.level.name),
      ("message", messageJson r.message), ("locations", .array [.object [("physicalLocation", place)]])])

def Log.toJson (log : Log) : Value :=
  let driver := Value.object ([("informationUri", .string log.informationUri), ("name", .string log.toolName),
    ("rules", .array (log.rules.map RuleEntry.toJson))] ++ textMember? "version" log.toolVersion)
  let run := Value.object [("tool", .object [("driver", driver)]), ("results", .array (log.results.map Result.toJson))]
  .object [("version", .string "2.1.0"), ("$schema", .string schema), ("runs", .array [run])]

end ShopLint.Sarif
