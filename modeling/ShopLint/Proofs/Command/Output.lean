import ShopLint.Command.Scan
import ShopLint.Proofs.FileTree
import ShopLint.Proofs.Text.Case
import ShopLint.Proofs.Text.Trim

/-!
The file for a report that goes into a directory. Its ending is the name of the format as it was given,
in lower case; that is the name of the format written just if no white space was given around it.
-/

namespace ShopLint

theorem Text.join_concat (sep : String) (pieces : List String) (last : String) :
    join sep (pieces ++ [last]) = if pieces = [] then last else join sep pieces ++ sep ++ last := by
  induction pieces with
  | nil => rfl
  | cons piece pieces ih =>
    rw [if_neg (List.cons_ne_nil _ _)]
    cases pieces with
    | nil => rfl
    | cons next pieces =>
      rw [if_neg (List.cons_ne_nil _ _)] at ih
      show piece ++ sep ++ join sep ((next :: pieces) ++ [last]) = _
      rw [ih]
      simp only [join, String.append_assoc]

namespace Path

theorem cleanSegments_concat {name : String} (proper : IsProper name) (rooted : Bool)
    (done segments : List String) :
    cleanSegments rooted done (segments ++ [name]) = cleanSegments rooted done segments ++ [name] := by
  obtain ⟨⟨nonempty, _⟩, notHere, notUp⟩ := proper
  induction segments generalizing done with
  | nil => simp [cleanSegments, nonempty, notHere, notUp]
  | cons segment segments ih =>
    simp only [List.cons_append, cleanSegments]
    split
    · exact ih done
    · split
      · cases done <;> exact ih _
      · exact ih _

/-- The file that a name joined to a directory leads to has that name. -/
theorem base_join (dir : String) {name : String} (proper : IsProper name) :
    base (join [dir, name]) = name := by
  have named := proper.1
  by_cases here : dir = ""
  · have alone : join [dir, name] = clean name := by simp [join, here, named.1, Text.join]
    have relative : isAbsolute name = false := by
      cases chars : name.toList with
      | nil => exact absurd (String.toList_eq_nil_iff.1 chars) named.1
      | cons c cs =>
        have noSlash : c ≠ '/' := fun slash => named.2 (by rw [chars, slash]; exact List.mem_cons_self)
        simp [isAbsolute, Text.startsWith, chars, List.isPrefixOf, Ne.symm noSlash]
    have cleaned : cleanSegments false [] (segments name) = [name] := by
      rw [segments_of_isName named.2]
      exact cleanSegments_concat proper false [] []
    rw [alone, clean, relative, cleaned]
    exact base_of_isName named
  · have both : join [dir, name] = clean (dir ++ "/" ++ name) := by simp [join, here, named.1, Text.join]
    have segmented : segments (dir ++ "/" ++ name) = segments dir ++ [name] := by
      rw [segments_append, segments_of_isName named.2]
    rw [both, clean, segmented]
    split
    · rw [cleanSegments_concat proper, Text.join_concat]
      split
      · exact @base_append "" _ named
      · rw [← String.append_assoc, ← String.append_assoc]
        exact base_append named
    · rw [cleanSegments_concat proper]
      split
      next none => simp at none
      next =>
        rw [Text.join_concat]
        split
        · exact base_of_isName named
        · exact base_append named

end Path

namespace Format

theorem ofName_eq_ok {text : String} {format : Format} (h : ofName text = .ok format) :
    Text.toLower (Text.trim text) = format.name := by
  simp only [ofName] at h
  split at h
  next found known =>
    have named := List.find?_some known
    simp only [decide_eq_true_eq] at named
    cases h
    exact named.symm
  next => cases h

theorem slash_not_mem_name (format : Format) : '/' ∉ format.name.toList := by
  cases format <;> decide

end Format

/-- An output path names a directory: it ends like one, or there is one. -/
structure Host.NamesDirectory (host : Host) (output dir : String) : Prop where
  resolved : host.absolute output = .ok dir
  directory : Text.endsWith output "/" ∨ host.isDirAt dir

theorem outputFile_of_namesDirectory {host : Host} {output dir : String}
    (h : host.NamesDirectory output dir) (format : String) :
    outputFile host output format = .ok (Path.join [dir, reportFileName ++ Format.extension format]) := by
  have directory : (Text.endsWith output "/" || host.isDirAt dir) = true := by
    simpa using h.directory
  simp only [outputFile, h.resolved, bind, Except.bind, if_pos directory]
  rfl

/-- A report file whose ending has no slash has a name of its own. -/
theorem isProper_reportFile {format : String} (h : '/' ∉ format.toList) :
    Path.IsProper (reportFileName ++ Format.extension format) := by
  have chars : (reportFileName ++ Format.extension format).toList =
      "magelint-report.".toList ++ format.toList := by
    simp [reportFileName, Format.extension]
  refine ⟨⟨fun eq => ?_, ?_⟩, fun eq => ?_, fun eq => ?_⟩
  · rw [eq] at chars
    simp at chars
  · rw [chars, List.mem_append]
    rintro (mem | mem)
    · revert mem
      decide
    · exact h mem
  · rw [eq] at chars
    simp at chars
  · rw [eq] at chars
    simp at chars

namespace ScanFlags

/-- The format that is asked for: by the flag, else by the settings, else JSON. -/
def askedFormat (flags : ScanFlags) (settings : Settings) : String :=
  Settings.orDefault flags.format (Settings.orDefault settings.report.format Format.json.name)

/-- The check of the flags does not change which format is asked for, up to case. -/
theorem formatName_of_check {flags checked : ScanFlags} {operands : List String} {root : String}
    (h : flags.check operands = .ok (checked, root)) (settings : Settings) :
    formatName checked.format settings = Text.toLower (flags.askedFormat settings) := by
  match operands, h with
  | [path], h =>
    simp only [check] at h
    split at h
    · cases h
    · split at h
      · cases h
        rfl
      next given =>
        split at h
        · cases h
          have lowered : Text.toLower flags.format ≠ "" := fun eq => given (Text.toLower_eq_empty_iff.1 eq)
          simp only [formatName, askedFormat, Settings.orDefault, if_neg lowered, if_neg given,
            Text.toLower_toLower]
        · cases h

variable {asked : String} {format : Format}

/-- A format that is known is the one asked for, without the white space around it. -/
theorem trim_of_known (known : Format.ofName (Text.toLower asked) = .ok format) :
    Text.toLower (Text.trim asked) = format.name := by
  have name := Format.ofName_eq_ok known
  rwa [Text.trim_toLower, Text.toLower_toLower] at name

theorem slash_not_mem_of_known (known : Format.ofName (Text.toLower asked) = .ok format) :
    '/' ∉ (Text.toLower asked).toList := by
  intro mem
  have kept : Text.trim (Text.toLower asked) = format.name := by
    rw [Text.trim_toLower, trim_of_known known]
  rcases Chars.mem_trimWhile_or (p := isBlank) mem with blank | mem
  · exact absurd blank (by decide)
  · refine format.slash_not_mem_name ?_
    rw [← kept]
    simpa [Text.trim] using mem

/-- The name of the format in lower case is the whole of what was asked for just if that has no white
space around it. -/
theorem toLower_eq_name_iff (known : Format.ofName (Text.toLower asked) = .ok format) :
    Text.toLower asked = format.name ↔ Text.trim asked = asked := by
  rw [← trim_of_known known, eq_comm, Text.toLower_trim_eq_iff]

end ScanFlags

/-- **The file of a report in a directory.** When the flags are accepted and the format is known, the
report goes into a file whose ending is the format as it was asked for, in lower case. Without the white
space around it that is the name of the format written, so the file is named for that format just if
the format was asked for without white space around it. -/
theorem outputFile_named_for_format {flags checked : ScanFlags} {operands : List String}
    {root output dir : String} {settings : Settings} {host : Host} {format : Format}
    (accepted : flags.check operands = .ok (checked, root))
    (known : Format.ofName (ScanFlags.formatName checked.format settings) = .ok format)
    (names : host.NamesDirectory output dir) :
    outputFile host output (ScanFlags.formatName checked.format settings) =
        .ok (Path.join [dir, reportFileName ++ "." ++ Text.toLower (flags.askedFormat settings)]) ∧
      Text.toLower (Text.trim (flags.askedFormat settings)) = format.name ∧
      (outputFile host output (ScanFlags.formatName checked.format settings) =
          .ok (Path.join [dir, reportFileName ++ Format.extension format.name]) ↔
        Text.trim (flags.askedFormat settings) = flags.askedFormat settings) := by
  rw [ScanFlags.formatName_of_check accepted] at known ⊢
  rw [outputFile_of_namesDirectory names]
  refine ⟨by rw [Format.extension, String.append_assoc], ScanFlags.trim_of_known known, ?_⟩
  rw [← ScanFlags.toLower_eq_name_iff known]
  constructor
  · intro same
    have names := congrArg Path.base (Except.ok.inj same)
    rw [Path.base_join dir (isProper_reportFile (ScanFlags.slash_not_mem_of_known known)),
      Path.base_join dir (isProper_reportFile format.slash_not_mem_name)] at names
    simpa [Format.extension] using names
  · intro same
    rw [same]

/-- A machine without files. -/
def emptyMachine : Host := { tree := .dir [], cwd := "/", env := {} }

/-- The format is found without the blank before it, but the file keeps the blank. -/
theorem outputFile_named_for_format_blank :
    ScanFlags.check { format := " Sarif" } ["/srv"] = .ok ({ format := " sarif" }, "/srv") ∧
    Format.ofName (ScanFlags.formatName " sarif" {}) = .ok .sarif ∧
    emptyMachine.NamesDirectory "/out/" "/out" ∧
    outputFile emptyMachine "/out/" (ScanFlags.formatName " sarif" {}) = .ok "/out/magelint-report. sarif" ∧
    outputFile emptyMachine "/out/" (ScanFlags.formatName " sarif" {}) ≠
      .ok (Path.join ["/out", reportFileName ++ Format.extension Format.sarif.name]) := by
  have accepted : ScanFlags.check { format := " Sarif" } ["/srv"] =
      .ok ({ format := " sarif" }, "/srv") := by decide +kernel
  have known : Format.ofName (ScanFlags.formatName " sarif" {}) = .ok .sarif := by decide +kernel
  have names : emptyMachine.NamesDirectory "/out/" "/out" := ⟨by decide +kernel, .inl (by decide +kernel)⟩
  obtain ⟨file, _, whole⟩ := outputFile_named_for_format accepted known names
  refine ⟨accepted, known, names, file.trans (by decide +kernel), fun same => ?_⟩
  exact absurd (whole.1 same) (by decide +kernel)

end ShopLint
