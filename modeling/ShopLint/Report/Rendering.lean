import ShopLint.Report.Page
import ShopLint.Report.Sarif

/-!
The text of a report in each of its formats, and when there is none: JSON text has bounds.
-/

namespace ShopLint

namespace Report

/-- Indented, with a newline at the end. -/
def jsonText (report : Report) : String := report.toJson.toLines ++ "\n"

def sarifText (host : Host) (options : RenderOptions) (report : Report) : String :=
  (Sarif.Log.ofReport host options report).toJson.toLines

def htmlText (options : RenderOptions) (report : Report) : String := (Page.ofReport options report).text

end Report

/-- Why a report has no text in a format. -/
inductive RenderError
  /-- The year of the scan has more than four digits. -/
  | year
  /-- There are too many arrays and objects inside each other; `sign` opens the first that is too deep. -/
  | nesting (sign : Char)
  deriving DecidableEq, Repr

def RenderError.message (format : Format) (e : RenderError) : String :=
  let cause :=
    match e with
    | year => "json: error calling MarshalJSON for type time.Time: Time.MarshalJSON: " ++
        "year outside of range [0,9999]"
    | nesting sign => s!"invalid character '{sign}' exceeded max depth"
  if format = .json then "json: error calling MarshalJSON for type *findings.Report: " ++ cause else cause

/-- The text, if it can be that of a value. -/
def textOf (value : Json.Value) (text : String) : Except RenderError String :=
  match value.opensBeyond? Json.nestingLimit with
  | some sign => .error (.nesting sign)
  | none => .ok text

/-- The report in a format. The files it speaks of are looked at where the format needs fingerprints. -/
def Format.render (host : Host) (options : RenderOptions) (report : Report) :
    Format → Except RenderError String
  | json => if 9999 < report.info.generatedAt.year then .error .year else textOf report.toJson report.jsonText
  | sarif => textOf (Sarif.Log.ofReport host options report).toJson (report.sarifText host options)
  | html => .ok (report.htmlText options)

end ShopLint
