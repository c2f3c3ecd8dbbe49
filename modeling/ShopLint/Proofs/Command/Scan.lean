import ShopLint.Command.Line
import ShopLint.Proofs.Writing

/-!
How a scan command ends, and what has become of its report by then. A report that can be written has
been written, whatever the exit; the exit tells success, a failed gate and everything else apart.
-/

namespace ShopLint

/-- The exit of a command that ends like this. -/
def exitOf (error : Option ScanCommandError) : Nat := error.elim 0 fun e => e.exitCode.toNat

namespace Outcome

variable (o : ScanOutcome)

@[simp] theorem ofScan_host : (ofScan o).host = o.host := by
  cases h : o.error <;> simp [ofScan, failed, h]

@[simp] theorem ofScan_stdout : (ofScan o).stdout = o.printed := by
  cases h : o.error <;> simp [ofScan, h]

@[simp] theorem ofScan_saved : (ofScan o).saved = o.saved := by
  cases h : o.error <;> simp [ofScan, h]

theorem ofScan_exit : (ofScan o).exit = exitOf o.error := by
  cases h : o.error <;> simp [ofScan, exitOf, h]

theorem ofScan_exit_mem : (ofScan o).exit ∈ [0, 1, 2] := by
  rw [ofScan_exit, exitOf]
  cases o.error with
  | none => simp
  | some e =>
    rw [Option.elim_some]
    cases e.exitCode <;> simp [ExitCode.toNat]

end Outcome

/-- What is wrong with a scan is nothing, its gate, or something else; the exit tells which. -/
theorem exit_verdict {expression : String} {result : ScanResult} :
    (exitOf (verdict expression result) = 2 ↔ result.failure = none ∧
      Gate.evaluate expression (.ofReport result.report) = .ok true) ∧
    (exitOf (verdict expression result) = 0 ↔ result.failure = none ∧
      Gate.evaluate expression (.ofReport result.report) = .ok false) := by
  unfold exitOf verdict
  cases result.failure with
  | some cause => simp [ScanCommandError.exitCode, ExitCode.toNat]
  | none =>
    dsimp only
    generalize Gate.evaluate expression (.ofReport result.report) = evaluated
    rcases evaluated with cause | failed
    · simp [ScanCommandError.exitCode, ExitCode.toNat]
    · cases failed <;> simp [ScanCommandError.exitCode, ExitCode.toNat]

section

variable {printer : Sink String String} {host : Host} {output format path text : String}

theorem deliver_print (h : output = "") :
    deliver printer host output format text =
      { host := host, printed := (printer.take text).1, error := (printer.take text).2.map .print } := by
  rw [deliver, if_pos h]

theorem deliver_write (h : output ≠ "") (named : outputFile host output format = .ok path)
    (written : (host.write path text).2 = none) :
    deliver printer host output format text =
      { host := (host.write path text).1, saved := some (path, text) } := by
  rw [deliver, if_neg h, named]
  dsimp only
  split
  next failed =>
    rw [failed] at written
    cases written
  next done => rw [done]

end

namespace ScanFlags

section

variable (flags : ScanFlags) (c : RunContext) (settings : Settings) (host : Host) (root : String)

/-- The scan has this result, complete or not, and its report this text. -/
def Reports (result : ScanResult) (text : String) : Prop :=
  ∃ format, Format.ofName (formatName flags.format settings) = .ok format ∧
    (flags.scanContext c settings host).scan host (flags.options root) = .ok result ∧
    format.render host (renderOptions c settings) result.report = .ok text

/-- The text can be written where the flags say: printing it meets with no failure, or the output path
names a file, and making its folder, opening it and writing to it meet with none. -/
def CanWrite (text : String) : Prop :=
  if flags.output = "" then (c.printer.take text).2 = none
  else ∃ path, outputFile host flags.output (formatName flags.format settings) = .ok path ∧
    (host.write path text).2 = none

/-- The complete text has been written in one place and nowhere else. -/
def WritesOnce (text : String) (outcome : Outcome) : Prop :=
  if flags.output = "" then
    outcome.stdout = text ∧ outcome.saved = none ∧ outcome.host = host
  else ∃ path, outputFile host flags.output (formatName flags.format settings) = .ok path ∧
    outcome.stdout = "" ∧ outcome.saved = some (path, text) ∧ host.Stores outcome.host path text

/-- The outcome tells how the run went, and no report is lost on the way. -/
structure Faithful (outcome : Outcome) : Prop where
  exit_mem : outcome.exit ∈ [0, 1, 2]
  gateFailed_iff : outcome.exit = 2 ↔ ∃ result text,
    flags.Reports c settings host root result text ∧ flags.CanWrite c settings host text ∧
      result.failure = none ∧
      Gate.evaluate (flags.gateExpression settings) (.ofReport result.report) = .ok true
  success_iff : outcome.exit = 0 ↔ ∃ result text,
    flags.Reports c settings host root result text ∧ flags.CanWrite c settings host text ∧
      result.failure = none ∧
      Gate.evaluate (flags.gateExpression settings) (.ofReport result.report) = .ok false
  written : ∀ result text, flags.Reports c settings host root result text →
    flags.CanWrite c settings host text → flags.WritesOnce settings host text outcome
  unwritten : ∀ result text, flags.Reports c settings host root result text →
    ¬flags.CanWrite c settings host text → outcome.exit = 1
  silent : (∃ cause, Format.ofName (formatName flags.format settings) = .error cause) ∨
      (∃ cause, (flags.scanContext c settings host).scan host (flags.options root) = .error cause) →
    outcome.stdout = "" ∧ outcome.saved = none ∧ outcome.host = host

end

variable {flags : ScanFlags} {c : RunContext} {settings : Settings} {host : Host} {root : String}
  {result : ScanResult} {text : String}

/-- Without the text of a report the command fails and writes nothing. -/
theorem run_of_not_reports (h : ∀ result text, ¬flags.Reports c settings host root result text) :
    ∃ e, flags.run c settings host root = { host := host, error := some e } ∧ e.exitCode = .failed := by
  unfold run
  dsimp only
  cases known : Format.ofName (formatName flags.format settings) with
  | error cause => exact ⟨.format cause, rfl, rfl⟩
  | ok format =>
    dsimp only
    cases scanned : (flags.scanContext c settings host).scan host (flags.options root) with
    | error cause => exact ⟨.scan cause, rfl, rfl⟩
    | ok result =>
      dsimp only
      cases rendered : format.render host (renderOptions c settings) result.report with
      | error cause => exact ⟨_, rfl, rfl⟩
      | ok text => exact absurd ⟨format, known, scanned, rendered⟩ (h result text)

theorem run_of_reports (h : flags.Reports c settings host root result text) :
    flags.run c settings host root =
      { deliver c.printer host flags.output (formatName flags.format settings) text with
        error := (deliver c.printer host flags.output (formatName flags.format settings) text).error.or
          (verdict (flags.gateExpression settings) result) } := by
  obtain ⟨format, known, scanned, rendered⟩ := h
  -- one match after the other, so that nothing of the scan is computed
  unfold run
  dsimp only
  rw [known]
  dsimp only
  rw [scanned]
  dsimp only
  rw [rendered]
  dsimp only
  generalize deliver c.printer host flags.output (formatName flags.format settings) text = outcome
  cases outcome with
  | mk after printed saved error => cases error <;> rfl

theorem deliver_of_canWrite (h : flags.CanWrite c settings host text) :
    (deliver c.printer host flags.output (formatName flags.format settings) text).error = none ∧
      ∀ error, flags.WritesOnce settings host text (.ofScan
        { deliver c.printer host flags.output (formatName flags.format settings) text with
          error := error }) := by
  unfold CanWrite at h
  by_cases printed : flags.output = ""
  · rw [if_pos printed] at h
    rw [deliver_print printed, h]
    refine ⟨rfl, fun error => ?_⟩
    rw [WritesOnce, if_pos printed]
    simp only [Outcome.ofScan_stdout, Outcome.ofScan_saved, Outcome.ofScan_host, and_true]
    exact c.printer.complete text h
  · rw [if_neg printed] at h
    obtain ⟨path, named, written⟩ := h
    rw [deliver_write printed named written]
    refine ⟨rfl, fun error => ?_⟩
    rw [WritesOnce, if_neg printed]
    refine ⟨path, named, ?_⟩
    simp only [Outcome.ofScan_stdout, Outcome.ofScan_saved, Outcome.ofScan_host, true_and]
    exact Host.write_stores written

theorem deliver_of_not_canWrite (h : ¬flags.CanWrite c settings host text) :
    ∃ e, (deliver c.printer host flags.output (formatName flags.format settings) text).error = some e ∧
      e.exitCode = .failed := by
  unfold CanWrite at h
  by_cases printed : flags.output = ""
  · rw [if_pos printed] at h
    obtain ⟨cause, fault⟩ := Option.ne_none_iff_exists'.1 h
    rw [deliver_print printed, fault]
    exact ⟨.print cause, rfl, rfl⟩
  · rw [if_neg printed] at h
    rw [deliver, if_neg printed]
    cases named : outputFile host flags.output (formatName flags.format settings) with
    | error cause => exact ⟨.outputPath cause, rfl, rfl⟩
    | ok path =>
      dsimp only
      split
      next after cause _ => exact ⟨.write path cause, rfl, rfl⟩
      next after written =>
        exact absurd ⟨path, named, by rw [written]⟩ h

/-- A report that can be written is written, and then the exit is up to the rules and the gate. -/
theorem run_of_canWrite (h : flags.Reports c settings host root result text)
    (ready : flags.CanWrite c settings host text) :
    flags.WritesOnce settings host text (.ofScan (flags.run c settings host root)) ∧
      (Outcome.ofScan (flags.run c settings host root)).exit =
        exitOf (verdict (flags.gateExpression settings) result) := by
  obtain ⟨none, once⟩ := deliver_of_canWrite ready
  rw [run_of_reports h, none, Option.none_or]
  exact ⟨once _, Outcome.ofScan_exit _⟩

theorem exit_of_not_canWrite (h : flags.Reports c settings host root result text)
    (fault : ¬flags.CanWrite c settings host text) :
    (Outcome.ofScan (flags.run c settings host root)).exit = 1 := by
  obtain ⟨e, failed, code⟩ := deliver_of_not_canWrite fault
  rw [run_of_reports h, failed, Outcome.ofScan_exit, Option.some_or, exitOf, Option.elim_some, code]
  rfl

/-- An exit other than 1 comes from a report that has been written. -/
theorem exit_eq_iff {code : Nat} (other : code ≠ 1) :
    (Outcome.ofScan (flags.run c settings host root)).exit = code ↔ ∃ result text,
      flags.Reports c settings host root result text ∧ flags.CanWrite c settings host text ∧
        exitOf (verdict (flags.gateExpression settings) result) = code := by
  constructor
  · intro exit
    by_cases reported : ∃ result text, flags.Reports c settings host root result text
    · obtain ⟨result, text, reports⟩ := reported
      by_cases ready : flags.CanWrite c settings host text
      · exact ⟨result, text, reports, ready, (run_of_canWrite reports ready).2 ▸ exit⟩
      · exact absurd (exit.symm.trans (exit_of_not_canWrite reports ready)) other
    · have noText (result : ScanResult) (text : String) :
          ¬flags.Reports c settings host root result text :=
        fun reports => reported ⟨result, text, reports⟩
      obtain ⟨e, eq, failed⟩ := run_of_not_reports noText
      rw [eq, Outcome.ofScan_exit, exitOf, Option.elim_some, failed] at exit
      exact absurd exit.symm other
  · rintro ⟨result, text, reports, ready, exit⟩
    exact (run_of_canWrite reports ready).2.trans exit

/-- Every run is faithful, whatever the tree, the settings and the flags are. -/
theorem run_faithful (flags : ScanFlags) (c : RunContext) (settings : Settings) (host : Host)
    (root : String) : flags.Faithful c settings host root (.ofScan (flags.run c settings host root)) where
  exit_mem := Outcome.ofScan_exit_mem _
  gateFailed_iff := by
    rw [exit_eq_iff (by decide)]
    simp only [exit_verdict.1]
  success_iff := by
    rw [exit_eq_iff (by decide)]
    simp only [exit_verdict.2]
  written := fun result text reports ready => (run_of_canWrite reports ready).1
  unwritten := fun result text reports fault => exit_of_not_canWrite reports fault
  silent := by
    intro none
    have noText (result : ScanResult) (text : String) :
        ¬flags.Reports c settings host root result text := by
      rintro ⟨format, known, scanned, _⟩
      rcases none with ⟨cause, unknown⟩ | ⟨cause, failed⟩
      · exact absurd (unknown.symm.trans known) (by simp)
      · exact absurd (failed.symm.trans scanned) (by simp)
    obtain ⟨e, eq, _⟩ := run_of_not_reports noText
    rw [eq]
    simp only [Outcome.ofScan_stdout, Outcome.ofScan_saved, Outcome.ofScan_host, and_self]

end ScanFlags

end ShopLint
