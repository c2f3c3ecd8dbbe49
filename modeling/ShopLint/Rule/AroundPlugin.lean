import ShopLint.Rule.Basic

/-!
Around plugins that never call the method they wrap: the wrapped method and every later plugin are
silently left out.
-/

namespace ShopLint.AroundPlugin

/-- `function aroundName (`: the name, which goes on with a capital letter. -/
def aroundHead? (text : List Char) : Option (List Char) := do
  let text ← Php.spaces? (← Php.word? "function" text)
  let text := Php.skipSpaces (Php.skipChar '&' text)
  let rest ← Php.word? "around" text
  let rest ← Chars.afterOne? (fun c => 'A' ≤ c && c ≤ 'Z') rest
  let rest := rest.dropWhile isWord
  let _ ← Php.word? "(" (Php.skipSpaces rest)
  return text.take (text.length - rest.length)

/-- The around method that a line declares. -/
def aroundMethod? (line : List Char) : Option (List Char) :=
  (Scan.find? (fun prev text => if Php.statementStart prev then aroundHead? text else none) line).map
    Prod.snd

/-- `callable $name` or `Closure $name`: the name. -/
def callableParam? (text : List Char) : Option (List Char) := do
  let rest ←
    match Php.word? "callable" text with
    | some rest => some rest
    | none => Php.word? "Closure" (Php.skipChar '\\' text)
  let rest ← Php.word? "$" (← Php.spaces? rest)
  (Chars.span1? isWord rest).map Prod.fst

/-- The block's text up to the opening brace. -/
def signature (block : Php.FunctionBlock) : List Char := block.text.takeWhile (· ≠ '\x7b')

/-- The variable through which the wrapped method is called. -/
def proceedName (block : Php.FunctionBlock) : List Char :=
  match Scan.find? (fun _ text => callableParam? text) (signature block) with
  | some (_, name) => name
  | none => "proceed".toList

/-- The code calls the variable of the given name. -/
def calls (name body : List Char) : Bool :=
  Chars.contains (['$'] ++ name ++ ['(']) body || Chars.contains (['$'] ++ name ++ [' ', '(']) body

/-- The occurrence for an around method declared on a line, if it never goes on. -/
def inspect (src : SourceFile) (line : Nat) (method : List Char) :
    Except RuleFailure (Option Occurrence) :=
  match Php.functionAt src.lines line with
  | .error e => .error ⟨s!"{src.path}:{line}: {e.message}"⟩
  | .ok block =>
    let name := proceedName block
    if calls name block.body then .ok none
    else
      let message := s!"{String.ofList method}() never calls ${String.ofList name}(); " ++
        "the original method and later plugins will not run"
      .ok (some { occurrenceAt src.path block.startLine .error message with endLine := block.endLine })

/-- The occurrences of one file. -/
def inspectFile (src : SourceFile) : Except RuleFailure (List Occurrence) := do
  let found ← (numbered src.lines).filterMapM fun (line, text) =>
    match aroundMethod? text with
    | some method => inspect src line method
    | none => .ok none
  return found

def find (host : Host) (files : Classification) : Except RuleFailure (List Occurrence) := do
  let paths := (files.files FileType.php).filter fun path => Text.contains path "/Plugin/"
  let found ← (loadAll host paths).mapM inspectFile
  return found.flatten

def rule : Rule where
  id := "aroundPluginProceed"
  target := FileType.php
  name := "Around plugin without $proceed"
  shortDescription := "around plugin never calls $proceed()"
  longDescription := "An around plugin that does not invoke its $proceed callable replaces the " ++
    "intercepted method and skips all later plugins. Call $proceed() or use a before/after plugin."
  run host files index := (find host files).map fun found => (index, found)

end ShopLint.AroundPlugin
