import ShopLint.Dispatch
import ShopLint.Rule.AreaScope
import ShopLint.Rule.AroundPlugin
import ShopLint.Rule.CoreInheritance
import ShopLint.Rule.DeprecatedJquery
import ShopLint.Rule.LayoutCache
import ShopLint.Rule.ObjectManager
import ShopLint.Rule.ProxyRequired
import ShopLint.Rule.RawSql
import ShopLint.Rule.RepositoryUse
import ShopLint.Rule.TemplateOutput

/-!
The registry of processors: each is registered under an identifier and made when a scan starts. What
cannot be made is left out and accounted for. The processors that come with the tool are those of its
rules.
-/

namespace ShopLint

/-- What the maker of a processor comes back with. -/
inductive Made
  | processor (p : Processor)
  | nothing
  | failed (message : String)
  | panicked (message : String)

/-- A processor's identifier and its maker, which is told whether there is a class index to share. -/
structure Registration where
  id : String
  make? : Option (Bool → Made)

/-- Why a registered processor is not available. -/
inductive BuildError
  | duplicate
  | emptyId
  | noMaker
  | nothing
  | failed (message : String)
  | panicked (message : String)
  | otherId (actual : String)
  deriving DecidableEq, Repr

def BuildError.message : BuildError → String
  | duplicate => "duplicate processor identifier"
  | emptyId => "empty processor identifier"
  | noMaker => "no factory registered"
  | nothing => "factory returned no processor"
  | failed message => message
  | panicked message => s!"factory panicked: {message}"
  | otherId actual => s!"factory returned processor {Text.quote actual}"

structure Diagnostic where
  id : String
  error : BuildError
  deriving DecidableEq, Repr

def Diagnostic.text (d : Diagnostic) : String := s!"{d.id}: {d.error.message}"

namespace Registration

/-- The processor of a registration, which must go by the registered identifier. -/
def build (reg : Registration) (indexed : Bool) : Except BuildError Processor :=
  if reg.id = "" then .error .emptyId
  else
    match reg.make? with
    | none => .error .noMaker
    | some make =>
      match make indexed with
      | .processor p => if p.id = reg.id then .ok p else .error (.otherId p.id)
      | .nothing => .error .nothing
      | .failed message => .error (.failed message)
      | .panicked message => .error (.panicked message)

/-- A registration of a rule that needs no class index. -/
def plain (r : Rule) : Registration := ⟨r.id, some fun _ => .processor r.processor⟩

/-- A registration of a rule that cannot do without the class index. -/
def indexing (r : Rule) : Registration :=
  ⟨r.id, some fun indexed =>
    if indexed then .processor r.processor else .failed "scan session is required"⟩

end Registration

abbrev Registry := List Registration

namespace Registry

/-- The registrations with their identifiers trimmed. -/
def ofList (registrations : List Registration) : Registry :=
  registrations.map fun reg => { reg with id := Text.trim reg.id }

/-- The registrations by identifier; those with the same one stay in order. -/
def sorted (registry : Registry) : List Registration :=
  List.mergeSort registry fun a b => decide (a.id ≤ b.id)

def ids (registry : Registry) : List String := registry.sorted.map Registration.id

/-- The processors and the diagnostics of some registrations; `seen` are the identifiers before them. -/
def buildFrom (indexed : Bool) (seen : List String) :
    List Registration → List Processor × List Diagnostic
  | [] => ([], [])
  | reg :: rest =>
    if reg.id ∈ seen then
      let (processors, diagnostics) := buildFrom indexed seen rest
      (processors, ⟨reg.id, .duplicate⟩ :: diagnostics)
    else
      let (processors, diagnostics) := buildFrom indexed (reg.id :: seen) rest
      match reg.build indexed with
      | .ok p => (p :: processors, diagnostics)
      | .error e => (processors, ⟨reg.id, e⟩ :: diagnostics)

/-- All processors in the order of their identifiers, and why others are missing. -/
def build (registry : Registry) (indexed : Bool) : List Processor × List Diagnostic :=
  buildFrom indexed [] registry.sorted

/-- The rules that come with the tool. -/
def default : Registry :=
  ofList [.plain AroundPlugin.rule, .plain AreaScope.rule, .plain ProxyRequired.rule,
    .plain ObjectManager.rule, .indexing CoreInheritance.rule, .plain DeprecatedJquery.rule,
    .plain LayoutCache.rule, .plain TemplateOutput.rule, .plain RawSql.rule,
    .indexing RepositoryUse.rule]

end Registry

end ShopLint
