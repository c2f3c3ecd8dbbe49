/-!
The look of the report page: its style sheet, and the script behind the buttons that filter by
severity.
-/

namespace ShopLint.Page

/-- Selectors and their declarations. -/
def styles : List (String × String) := [
  ("body",
    "font-family: -apple-system, \"Segoe UI\", Roboto, Helvetica, Arial, sans-serif; margin: 0; background: #f6f7f9; color: #1f2328;"),
  ("header",
    "display: flex; align-items: center; gap: 16px; padding: 16px 32px; background: #1f2328; color: #fff;"),
  ("header img", "height: 32px;"),
  ("header .meta", "font-size: 13px; opacity: .8;"),
  ("main", "padding: 24px 32px;"),
  (".summary", "display: flex; gap: 12px; margin-bottom: 24px;"),
  (".summary button",
    "border: 1px solid #d0d7de; border-radius: 6px; background: #fff; padding: 8px 16px; cursor: pointer; font-size: 14px;"),
  (".summary button.active", "border-color: #1f2328; font-weight: 600;"),
  (".badge",
    "display: inline-block; min-width: 20px; padding: 2px 8px; border-radius: 10px; font-size: 12px; font-weight: 600; text-align: center; color: #fff;"),
  (".badge.error", "background: #cf222e;"),
  (".badge.warning", "background: #bf8700;"),
  (".badge.note", "background: #0969da;"),
  (".rule", "background: #fff; border: 1px solid #d0d7de; border-radius: 6px; margin-bottom: 16px;"),
  (".rule h2",
    "display: flex; align-items: center; gap: 8px; margin: 0; padding: 12px 16px; font-size: 16px; border-bottom: 1px solid #d0d7de;"),
  (".rule .description", "padding: 8px 16px; font-size: 14px; color: #57606a;"),
  (".rule .counts", "margin-left: auto; font-weight: normal; font-size: 13px;"),
  ("table", "width: 100%; border-collapse: collapse; font-size: 13px;"),
  ("th, td",
    "text-align: left; padding: 6px 16px; border-top: 1px solid #eaeef2; vertical-align: top;"),
  ("td.file", "font-family: SFMono-Regular, Consolas, monospace; word-break: break-all;"),
  ("pre.hint",
    "margin: 6px 0 0; padding: 8px; background: #f6f8fa; border-radius: 6px; font-size: 12px;"),
  (".empty",
    "padding: 48px; text-align: center; background: #fff; border: 1px solid #d0d7de; border-radius: 6px; font-size: 18px;"),
  (".hidden", "display: none;")]

/-- The style sheet, one line for each selector. -/
def styleSheet : String :=
  String.join (styles.map fun s => "  " ++ s.1 ++ " \x7b " ++ s.2 ++ " \x7d\n")

def scriptLines : List String := [
  "  (function () \x7b",
  "    var buttons = document.querySelectorAll(\".summary button\");",
  "    buttons.forEach(function (button) \x7b",
  "      button.addEventListener(\"click\", function () \x7b",
  "        var filter = button.getAttribute(\"data-filter\");",
  "        buttons.forEach(function (b) \x7b b.classList.toggle(\"active\", b === button); \x7d);",
  "        document.querySelectorAll(\"tr.occurrence\").forEach(function (row) \x7b",
  "          row.classList.toggle(\"hidden\", filter !== \"all\" && row.getAttribute(\"data-severity\") !== filter);",
  "        \x7d);",
  "        document.querySelectorAll(\"section.rule\").forEach(function (section) \x7b",
  "          var visible = section.querySelectorAll(\"tr.occurrence:not(.hidden)\").length > 0;",
  "          section.classList.toggle(\"hidden\", !visible);",
  "        \x7d);",
  "      \x7d);",
  "    \x7d);",
  "  \x7d)();"]

/-- A button shows the occurrences of its severity and the rules that still have one. -/
def script : String := String.join (scriptLines.map (· ++ "\n"))

end ShopLint.Page
