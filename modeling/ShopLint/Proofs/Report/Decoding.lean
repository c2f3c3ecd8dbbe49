import ShopLint.Proofs.Instant
import ShopLint.Proofs.Json.Reading
import ShopLint.Proofs.Json.Value
import ShopLint.Proofs.Report.Merging
import ShopLint.Report.Rendering

/-!
Reports read back from their text. A report that findings were merged into is the report that its
text holds, on one line or indented, unless the data of some occurrence has too many lists and objects
inside each other.
-/

namespace ShopLint

open Json (Value)

/-! Fields -/

theorem integer?_toString {n : Int} (h : Word.isSigned n) : integer? (toString n) = some n := by
  have digits (m : Nat) : ((toString m).toList.isEmpty || !(toString m).toList.all Decimal.isDigitChar)
      = false := by
    rw [Bool.or_eq_false_iff, List.isEmpty_eq_false_iff, Bool.not_eq_false', List.all_eq_true]
    exact ⟨Decimal.toList_toString_ne_nil m, fun _ mem => Decimal.isDigitChar_of_mem_toString mem⟩
  cases n with
  | ofNat m =>
    obtain ⟨c, cs, eq, -, unsigned⟩ := Decimal.head_toString m
    have shown := digits m
    have value := Decimal.ofDigits_toString m
    rw [integer?, show toString (Int.ofNat m) = toString m from rfl]
    rw [eq] at shown value ⊢
    split
    next heq =>
      split at heq
      next minus => exact absurd (List.cons.inj minus).1 unsigned
      next =>
        cases heq
        simp only [shown, value, Bool.false_eq_true, if_false]
        exact if_pos h
  | negSucc m =>
    rw [integer?, Decimal.toList_toString_neg]
    simp only [digits, Decimal.ofDigits_toString, Bool.false_eq_true, if_false, if_true]
    exact if_pos h

section Members

variable {α : Type} {set : α → String → Value → Option α} {old : α} {key : String}

/-- An object is read member by member. -/
theorem readObject_cons {v : Value} (new : α) (h : set old key v = some new)
    (members : List (String × Value)) :
    readObject set old (.object ((key, v) :: members)) = readObject set new (.object members) := by
  simp only [readObject, List.foldlM_cons, h]
  rfl

/-- A text that is left out when it is empty is read as itself. -/
theorem readObject_textMember? {text : String} (new : α) (given : set old key (.string text) = some new)
    (absent : text = "" → old = new) (members : List (String × Value)) :
    readObject set old (.object (textMember? key text ++ members)) = readObject set new (.object members) := by
  by_cases empty : text = ""
  · rw [textMember?, if_pos empty, absent empty, List.nil_append]
  · rw [textMember?, if_neg empty, List.singleton_append, readObject_cons new given]

end Members

theorem ScanInfo.setMember_generatedAt (info : ScanInfo) (v : Value) :
    info.setMember "generatedAt" v =
      (readTime info.generatedAt v).map fun t => { info with generatedAt := t } := rfl

theorem ScanInfo.ofJson_toJson {info : ScanInfo} (h : info.generatedAt.IsUniversal) :
    ofJson info.toJson = some info := by
  obtain ⟨scanId, path, generatedAt, toolVersion, branch, commit⟩ := info
  have time_read : setMember { scanId, path } "generatedAt" (.string generatedAt.text) =
      some { scanId, path, generatedAt } := by
    rw [setMember_generatedAt, readTime, Instant.parse?_text h]
    rfl
  rw [ofJson, toJson, ← List.append_nil (textMember? "commit" _)]
  simp only [List.append_assoc, List.cons_append, List.nil_append]
  rw [readObject_textMember? { scanId } rfl (by rintro rfl; rfl),
    readObject_cons { scanId, path } rfl,
    readObject_cons { scanId, path, generatedAt } time_read,
    readObject_textMember? { scanId, path, generatedAt, toolVersion } rfl (by rintro rfl; rfl),
    readObject_textMember? { scanId, path, generatedAt, toolVersion, branch } rfl (by rintro rfl; rfl),
    readObject_textMember? { scanId, path, generatedAt, toolVersion, branch, commit } rfl
      (by rintro rfl; rfl)]
  rfl

/-- The lines are numbers of 64 bits, and what is known further is plain data. -/
structure Occurrence.IsPlain (o : Occurrence) : Prop where
  startLine : Word.isSigned o.startLine
  endLine : Word.isSigned o.endLine
  metadata : (Value.object o.metadata).Plain

theorem Occurrence.ofJson_toJson {o : Occurrence} (h : o.IsPlain) : ofJson {} o.toJson = some o := by
  obtain ⟨file, startLine, endLine, message, ⟨severity⟩, metadata⟩ := o
  obtain ⟨start, last, plain⟩ := h
  have first_read : readInt 0 (.int startLine) = some startLine := integer?_toString start
  have last_read : readInt 0 (.int endLine) = some endLine := integer?_toString last
  have data_read : readMetadata [] (.object metadata) = some metadata := by
    refine Option.map_eq_some_iff.2 ⟨metadata, Value.normalMembers?_plain _ plain.2, ?_⟩
    exact Dict.entries_ofList plain.1
  rw [ofJson, toJson]
  simp only [List.cons_append, List.nil_append]
  rw [readObject_cons { file } rfl,
    readObject_cons { file, startLine } (Option.map_eq_some_iff.2 ⟨startLine, first_read, rfl⟩),
    readObject_cons { file, startLine, endLine } (Option.map_eq_some_iff.2 ⟨endLine, last_read, rfl⟩),
    readObject_cons { file, startLine, endLine, message } rfl,
    readObject_textMember? { file, startLine, endLine, message, severity := ⟨severity⟩ } rfl
      (by rintro rfl; rfl)]
  cases metadata with
  | nil => rfl
  | cons member members =>
    rw [List.isEmpty_cons, if_neg Bool.false_ne_true, readObject_cons _
      (Option.map_eq_some_iff.2 ⟨member :: members, data_read, rfl⟩)]
    rfl

theorem Occurrence.listOfJson_map {occurrences : List Occurrence} (h : ∀ o ∈ occurrences, o.IsPlain) :
    listOfJson [] (occurrences.map toJson) = some occurrences := by
  induction occurrences with
  | nil => rfl
  | cons o occurrences ih =>
    have first := ofJson_toJson (h o List.mem_cons_self)
    have others := ih fun o mem => h o (List.mem_cons_of_mem _ mem)
    simp only [List.map_cons, listOfJson, List.headD_nil, List.tail_nil, first, others]
    rfl

theorem Finding.ofJson_toJson {f : Finding} (listed : f.listed.isSome)
    (h : ∀ o ∈ f.occurrences, o.IsPlain) : ofJson f.toJson = some f := by
  obtain ⟨ruleId, name, shortDescription, longDescription, list⟩ := f
  obtain ⟨occurrences, rfl⟩ := Option.isSome_iff_exists.1 listed
  have files_read : readFiles none (.array (occurrences.map Occurrence.toJson)) =
      some (some occurrences) :=
    Option.map_eq_some_iff.2 ⟨occurrences, Occurrence.listOfJson_map h, rfl⟩
  rw [ofJson, toJson, readObject_cons { ruleId } rfl, readObject_cons { ruleId, name } rfl,
    readObject_cons { ruleId, name, shortDescription } rfl,
    readObject_cons { ruleId, name, shortDescription, longDescription } rfl,
    readObject_cons _ (Option.map_eq_some_iff.2 ⟨some occurrences, files_read, rfl⟩)]
  rfl

/-! What the values of the text form are made of -/

section Parts

/-- `Q` holds of the values without parts that a text form has. -/
structure OfScalars (Q : Value → Prop) : Prop where
  null : Q .null
  text : ∀ text, Q (.string text)
  int : ∀ n, Q (.int n)

variable {Q : Value → Prop} (scalars : OfScalars Q)

include scalars

theorem OfScalars.textMember? (key text : String) : ∀ m ∈ textMember? key text, Q m.2 := by
  intro m mem
  rw [ShopLint.textMember?] at mem
  split at mem
  · cases mem
  · rw [List.mem_singleton.1 mem]
    exact scalars.text text

theorem ScanInfo.forall_members (info : ScanInfo) : ∀ m ∈ info.toJson.members, Q m.2 := by
  simp only [toJson, Value.members, List.forall_mem_append, List.forall_mem_cons]
  exact ⟨⟨⟨⟨scalars.textMember? _ _, scalars.text _, scalars.text _, by simp⟩, scalars.textMember? _ _⟩,
    scalars.textMember? _ _⟩, scalars.textMember? _ _⟩

theorem Occurrence.forall_members (o : Occurrence) :
    (∀ m ∈ o.toJson.members, Q m.2) ↔ (o.metadata ≠ [] → Q (.object o.metadata)) := by
  simp only [toJson, Value.members, List.forall_mem_append, List.forall_mem_cons, scalars.text,
    scalars.int, true_and]
  refine (and_iff_right ⟨by simp, scalars.textMember? _ _⟩).trans ?_
  cases o.metadata <;> simp

theorem Finding.forall_members (f : Finding) :
    (∀ m ∈ f.toJson.members, Q m.2) ↔
      (f.listed.isSome → Q (.array (f.occurrences.map Occurrence.toJson))) := by
  simp only [toJson, Value.members, List.forall_mem_cons, scalars.text, occurrences]
  cases f.listed <;> simp [scalars.null]

end Parts

theorem OfScalars.numbers : OfScalars (Value.Numbers Json.IsWhole) :=
  ⟨trivial, fun _ => trivial, fun n => ⟨n, rfl⟩⟩

theorem OfScalars.depth (room : Nat) : OfScalars fun v => v.depth ≤ room :=
  ⟨Nat.zero_le _, fun _ => Nat.zero_le _, fun _ => Nat.zero_le _⟩

theorem Occurrence.numbers_toJson {o : Occurrence} (h : o.IsPlain) : o.toJson.Numbers Json.IsWhole :=
  Value.numbersMembers_iff.2 ((o.forall_members .numbers).2 fun _ => Value.Plain.numbers _ _ h.metadata)

theorem Finding.numbers_toJson {f : Finding} (h : ∀ o ∈ f.occurrences, o.IsPlain) :
    f.toJson.Numbers Json.IsWhole := by
  refine Value.numbersMembers_iff.2 ((f.forall_members .numbers).2 fun _ => ?_)
  refine Value.numbersItems_iff.2 (List.forall_mem_map.2 fun o mem => ?_)
  exact Occurrence.numbers_toJson (h o mem)

theorem Occurrence.depth_toJson_le (o : Occurrence) (room : Nat) :
    o.toJson.depth ≤ room + 1 ↔ (o.metadata ≠ [] → (Value.object o.metadata).depth ≤ room) :=
  Value.depth_object_le.trans (o.forall_members (.depth room))

/-- A finding adds its object and its list around the occurrences. -/
theorem Finding.depth_toJson_le {f : Finding} (listed : f.listed.isSome) (room : Nat) :
    f.toJson.depth ≤ room + 3 ↔
      ∀ o ∈ f.occurrences, o.metadata ≠ [] → (Value.object o.metadata).depth ≤ room := by
  refine Value.depth_object_le.trans ((f.forall_members (.depth (room + 2))).trans ?_)
  rw [forall_prop_of_true listed, Value.depth_array_le, List.forall_mem_map]
  exact forall₂_congr fun o _ => o.depth_toJson_le room

/-! Reports -/

namespace Report

/-- The scan's own member stands among those of the rules. -/
theorem Tidy.members_eq {P : Occurrence → Prop} {report : Report} (h : report.Tidy P) :
    ∃ before after, report.findings.entries = before ++ after ∧
      report.toJson.members = before.map (fun e => (e.1, e.2.toJson)) ++
        (infoKey, report.info.toJson) :: after.map fun e => (e.1, e.2.toJson) := by
  have absent : ∀ e ∈ (report.findings.map Finding.toJson).entries, e.1 ≠ infoKey := by
    intro e mem
    obtain ⟨⟨id, f⟩, inside, rfl⟩ := List.mem_map.1 mem
    exact h.ne_infoKey inside
  obtain ⟨before, after, parts, eq⟩ := Dict.alterList_of_absent (fun _ => report.info.toJson) absent
  obtain ⟨first, second, split, rfl, rfl⟩ := List.map_eq_append_iff.1 parts
  exact ⟨first, second, split, eq⟩

/-- What holds of the scan's member and of the rules' members holds of all. -/
theorem Tidy.forall_members {P : Occurrence → Prop} {report : Report} (h : report.Tidy P)
    (Q : Value → Prop) : (∀ m ∈ report.toJson.members, Q m.2) ↔
      Q report.info.toJson ∧ ∀ e ∈ report.findings.entries, Q e.2.toJson := by
  obtain ⟨before, after, parts, eq⟩ := h.members_eq
  simp only [eq, parts, List.forall_mem_append, List.forall_mem_cons, List.forall_mem_map]
  exact and_left_comm

/-- Rules are read back one after the other. -/
theorem foldlM_findings (report : Report) {entries : List (String × Finding)}
    (h : ∀ e ∈ entries, e.1 ≠ infoKey ∧ Finding.ofJson e.2.toJson = some e.2) :
    (entries.map fun e => (e.1, e.2.toJson)).foldlM (fun r m => r.setMember m.1 m.2) report =
      .ok { report with findings := entries.foldl (fun d e => d.insert e.1 e.2) report.findings } := by
  induction entries generalizing report with
  | nil => rfl
  | cons e entries ih =>
    obtain ⟨named, read⟩ := h e List.mem_cons_self
    have step : report.setMember e.1 e.2.toJson =
        .ok { report with findings := report.findings.insert e.1 e.2 } := by
      rw [setMember, if_neg named, read]
    rw [List.map_cons, List.foldlM_cons, step]
    exact ih _ fun e mem => h e (List.mem_cons_of_mem _ mem)

theorem Tidy.ofJson_toJson {report : Report} (h : report.Tidy Occurrence.IsPlain)
    (universal : report.info.generatedAt.IsUniversal) : ofJson report.toJson = .ok report := by
  obtain ⟨before, after, parts, eq⟩ := h.members_eq
  have readable : ∀ e ∈ before ++ after, e.1 ≠ infoKey ∧ Finding.ofJson e.2.toJson = some e.2 := by
    intro e mem
    rw [← parts] at mem
    obtain ⟨-, -, listed, plain⟩ := h e.1 e.2 ((Dict.mem_entries_iff _ _ _).1 mem)
    exact ⟨h.ne_infoKey mem, Finding.ofJson_toJson listed plain⟩
  have scan (r : Report) : r.setMember infoKey report.info.toJson = .ok { r with info := report.info } := by
    rw [setMember, if_pos rfl, ScanInfo.ofJson_toJson universal]
  have refilled : after.foldl (fun d e => d.insert e.1 e.2) (before.foldl (fun d e => d.insert e.1 e.2) {}) =
      report.findings := by
    rw [← List.foldl_append, ← parts]
    exact Dict.ofList_entries report.findings
  rw [toJson, ofJson, Dict.ofList_entries, show Dict.entries _ = report.toJson.members from rfl, eq,
    List.foldlM_append, foldlM_findings _ fun e mem => readable e (List.mem_append_left _ mem)]
  simp only [List.foldlM_cons, scan]
  refine (foldlM_findings _ fun e mem => readable e (List.mem_append_right _ mem)).trans ?_
  rw [refilled]

/-! Text -/

theorem Tidy.numbers_toJson {report : Report} (h : report.Tidy Occurrence.IsPlain) :
    report.toJson.Numbers Json.IsWhole := by
  refine Value.numbersMembers_iff.2 ((h.forall_members _).2 ⟨?_, fun e mem => ?_⟩)
  · exact Value.numbersMembers_iff.2 (report.info.forall_members .numbers)
  · obtain ⟨-, -, -, plain⟩ := h e.1 e.2 ((Dict.mem_entries_iff _ _ _).1 mem)
    exact Finding.numbers_toJson plain

/-- A report adds its object, the finding's and the occurrence's, and a list, around what is known
further of an occurrence. -/
theorem Tidy.depth_toJson_le {P : Occurrence → Prop} {report : Report} (h : report.Tidy P) (room : Nat) :
    report.toJson.depth ≤ room + 4 ↔
      ∀ o ∈ report.occurrences, o.metadata ≠ [] → (Value.object o.metadata).depth ≤ room := by
  have scan : report.info.toJson.depth ≤ room + 3 :=
    Value.depth_object_le.2 (report.info.forall_members (.depth (room + 2)))
  have rules : (∀ e ∈ report.findings.entries, e.2.toJson.depth ≤ room + 3) ↔
      ∀ e ∈ report.findings.entries, ∀ o ∈ e.2.occurrences,
        o.metadata ≠ [] → (Value.object o.metadata).depth ≤ room :=
    forall₂_congr fun e mem =>
      Finding.depth_toJson_le (h e.1 e.2 ((Dict.mem_entries_iff _ _ _).1 mem)).2.2.1 room
  refine Value.depth_object_le.trans ((h.forall_members fun v => v.depth ≤ room + 3).trans ?_)
  rw [and_iff_right scan, rules]
  simp only [occurrences, Report.rules, Dict.values, List.forall_mem_flatMap, List.forall_mem_map]

/-- The report is within the depth that readers accept just when each occurrence is. -/
theorem Tidy.depth_le_nestingLimit {P : Occurrence → Prop} {report : Report} (h : report.Tidy P) :
    report.toJson.depth ≤ Json.nestingLimit ↔
      ∀ o ∈ report.occurrences, (Value.object o.metadata).depth + 4 ≤ Json.nestingLimit := by
  refine (h.depth_toJson_le (Json.nestingLimit - 4)).trans (forall₂_congr fun o _ => ?_)
  cases o.metadata with
  | nil => decide
  | cons member members => simp [Json.nestingLimit]

/-- A text that holds the report's value is read as the report, or refused for its depth. -/
theorem Tidy.parse_eq {report : Report} (h : report.Tidy Occurrence.IsPlain)
    (universal : report.info.generatedAt.IsUniversal) {text : String}
    (read : Json.parse? text.toList =
      if report.toJson.depth ≤ Json.nestingLimit then some report.toJson else none) :
    parse text = if report.toJson.depth ≤ Json.nestingLimit then .ok report else .error .notAnObject := by
  rw [parse, read]
  by_cases fits : report.toJson.depth ≤ Json.nestingLimit
  · simp only [if_pos fits]
    exact h.ofJson_toJson universal
  · simp only [if_neg fits]

theorem Tidy.parse_toText {report : Report} (h : report.Tidy Occurrence.IsPlain)
    (universal : report.info.generatedAt.IsUniversal) :
    parse report.toJson.toText =
      if report.toJson.depth ≤ Json.nestingLimit then .ok report else .error .notAnObject :=
  h.parse_eq universal (Json.parse?_toText h.numbers_toJson)

theorem Tidy.parse_jsonText {report : Report} (h : report.Tidy Occurrence.IsPlain)
    (universal : report.info.generatedAt.IsUniversal) :
    parse report.jsonText =
      if report.toJson.depth ≤ Json.nestingLimit then .ok report else .error .notAnObject :=
  h.parse_eq universal (Json.parse?_toLines h.numbers_toJson (by simp [Json.isJsonBlank]))

/-- One occurrence that is nested too deep makes the whole text one that no reader accepts. -/
theorem Tidy.parse_toText_of_deep {report : Report} (h : report.Tidy Occurrence.IsPlain)
    (universal : report.info.generatedAt.IsUniversal) {o : Occurrence} (mem : o ∈ report.occurrences)
    (deep : Json.nestingLimit < (Value.object o.metadata).depth + 4) :
    parse report.toJson.toText = .error .notAnObject := by
  rw [h.parse_toText universal, if_neg]
  intro fits
  exact absurd (h.depth_le_nestingLimit.1 fits o mem) (Nat.not_le.2 deep)

/-- A report that findings were merged into is read back as it was from either of its texts, unless an
occurrence is nested too deep; then its text is refused. -/
theorem parse_written (info : ScanInfo) (added : List Finding) (universal : info.generatedAt.IsUniversal)
    (plain : ∀ o ∈ (addAll { info := info } added).occurrences, o.IsPlain) :
    let report := addAll { info := info } added
    ((∀ o ∈ report.occurrences, (Value.object o.metadata).depth + 4 ≤ Json.nestingLimit) →
      parse report.toJson.toText = .ok report ∧ parse report.jsonText = .ok report) ∧
    ((∃ o ∈ report.occurrences, Json.nestingLimit < (Value.object o.metadata).depth + 4) →
      parse report.toJson.toText = .error .notAnObject) := by
  intro report
  have tidy : report.Tidy Occurrence.IsPlain := .of_addAll plain
  have same_time : report.info.generatedAt.IsUniversal := by
    rw [info_addAll]
    exact universal
  constructor
  · intro shallow
    have fits := tidy.depth_le_nestingLimit.2 shallow
    rw [tidy.parse_toText same_time, tidy.parse_jsonText same_time, if_pos fits]
    exact ⟨rfl, rfl⟩
  · rintro ⟨o, mem, deep⟩
    exact tidy.parse_toText_of_deep same_time mem deep

end Report

/-- An afternoon in universal time. -/
def afternoon : Instant := ⟨2024, 3, 1, 14, 5, 9, 0, 0⟩

theorem isUniversal_afternoon : afternoon.IsUniversal := by constructor <;> decide

/-- Text that needs escapes, and data of each kind. -/
def taggedOccurrence : Occurrence where
  file := "a<b>.php"
  startLine := 3
  message := "said \"no\"\n\u2028"
  severity := .error
  metadata := [("class", .string "A\\B"), ("tags", .array [.null, .bool true, .object [("k", .array [])]])]

/-- A rule that comes twice, and one that has the reserved key. -/
def taggedFindings : List Finding := [
  { ruleId := "sql", name := "Raw & unsafe", listed := some [taggedOccurrence] },
  { ruleId := Report.infoKey, listed := some [{}] },
  { ruleId := "sql", listed := some [{ file := "b.php" }] }]

def taggedInfo : ScanInfo := { path := "/srv", generatedAt := afternoon, branch := "main" }

theorem Report.parse_written_taggedFindings :
    let report := addAll { info := taggedInfo } taggedFindings
    report.occurrences.length = 2 ∧ parse report.toJson.toText = .ok report ∧
      parse report.jsonText = .ok report := by
  have occurrences : (addAll { info := taggedInfo } taggedFindings).occurrences =
      [taggedOccurrence.normalize, { file := "b.php" }] := rfl
  have tagged : (Value.object taggedOccurrence.metadata).Plain := by
    refine ⟨by decide, trivial, ?_, trivial⟩
    exact ⟨trivial, trivial, ⟨by decide, trivial, trivial⟩, trivial⟩
  refine ⟨rfl, (parse_written taggedInfo taggedFindings isUniversal_afternoon ?_).1 ?_⟩
  · rw [occurrences, List.forall_mem_cons, List.forall_mem_singleton]
    exact ⟨⟨rfl, rfl, tagged⟩, rfl, rfl, .nil, trivial⟩
  · rw [occurrences]
    decide

/-- Lists inside each other, the innermost one empty, around which there are `n` others. -/
def nested : Nat → Value
  | 0 => .array []
  | n + 1 => .array [nested n]

theorem depth_nested (n : Nat) : (nested n).depth = n + 1 := by
  induction n with
  | zero => rfl
  | succ n ih => simp [nested, Value.depth, Value.depthItems, ih]

theorem plain_nested (n : Nat) : (nested n).Plain := by
  induction n with
  | zero => trivial
  | succ n ih => exact ⟨ih, trivial⟩

/-- One occurrence of which a nested list is known. -/
def deepOccurrence (n : Nat) : Occurrence := { metadata := [("a", nested n)] }

def deepReport (n : Nat) : Report :=
  (Report.start "/srv" afternoon).addAll [{ ruleId := "deep", listed := some [deepOccurrence n] }]

theorem isPlain_deepOccurrence (n : Nat) : (deepOccurrence n).IsPlain :=
  ⟨rfl, rfl, List.pairwise_singleton _ _, plain_nested n, trivial⟩

theorem isPlain_deepReport (n : Nat) : ∀ o ∈ (deepReport n).occurrences, o.IsPlain := by
  rw [show (deepReport n).occurrences = [deepOccurrence n] from rfl]
  exact List.forall_mem_singleton.2 (isPlain_deepOccurrence n)

theorem Report.parse_deepReport_eq {n : Nat} (deep : Json.nestingLimit < n + 6) :
    parse (deepReport n).toJson.toText = .error .notAnObject := by
  have depth : (Value.object (deepOccurrence n).metadata).depth = n + 2 := by
    simp [deepOccurrence, Value.depth, Value.depthMembers, depth_nested]
  refine (Tidy.of_addAll (isPlain_deepReport n)).parse_toText_of_deep isUniversal_afternoon
    (List.mem_singleton_self (deepOccurrence n)) ?_
  rw [depth]
  exact deep

/-- 9996 lists inside each other are too many, although they are plain data. -/
theorem Report.parse_deepReport :
    (deepReport 9995).info.generatedAt.IsUniversal ∧
    (∀ o ∈ (deepReport 9995).occurrences, o.IsPlain) ∧
    parse (deepReport 9995).toJson.toText = .error .notAnObject :=
  ⟨isUniversal_afternoon, isPlain_deepReport 9995, parse_deepReport_eq (by decide)⟩

end ShopLint
