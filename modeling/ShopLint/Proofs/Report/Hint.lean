import ShopLint.Proofs.Dict
import ShopLint.Proofs.Module.Nearest
import ShopLint.Proofs.Php.ClassName
import ShopLint.Proofs.Rule.ProxyRequired
import ShopLint.Proofs.Xml.RoundTrip
import ShopLint.Report.Hint

/-!
What becomes of a hint that is put into a configuration file. The element is read back as it was meant, so
the rule does not report the argument again. But the comment before it has the path of the file as it is,
and a path with two hyphens breaks the comment.
-/

namespace ShopLint

open ClassName (IsFull)
open ProxyRequired (Injection find document? proxiedIn proxiedInDocument)

namespace Hint

/-- The names in the hint are spelled as names of classes and arguments are, and the proxy is one. -/
structure WellSpelled (h : Hint) : Prop where
  className : IsFull h.className
  argument : IsFull h.argument
  proxy : ∀ c ∈ h.proxy.toList, isQualified c
  isProxy : Text.endsWith h.proxy "\\Proxy"

theorem kept_of_isQualified {text : String} (h : ∀ c ∈ text.toList, isQualified c) : Xml.Kept text := by
  intro c mem
  obtain ⟨low, high⟩ := toNat_of_isQualified (h c mem)
  constructor
  · simp only [Xml.isXmlChar, Bool.or_eq_true, Bool.and_eq_true, decide_eq_true_eq]
    omega
  · rintro rfl
    exact absurd low (by decide)

variable {h : Hint}

/-- The element of the hint can be written. -/
theorem WellSpelled.plain (spelled : h.WellSpelled) : h.toNode.Plain := by
  have type : (⟨"", "type"⟩ : Xml.Name).Writable := by constructor <;> decide +kernel
  have arguments : (⟨"", "arguments"⟩ : Xml.Name).Writable := by constructor <;> decide +kernel
  have argument : (⟨"", "argument"⟩ : Xml.Name).Writable := by constructor <;> decide +kernel
  have name : (⟨"", "name"⟩ : Xml.Name).Writable := by constructor <;> decide +kernel
  have xsiType : (⟨"xsi", "type"⟩ : Xml.Name).Writable := by constructor <;> decide +kernel
  have ofClass : (attr "" "name" h.className).Writable :=
    ⟨name, kept_of_isQualified spelled.className.isQualified⟩
  have ofArgument : (attr "" "name" h.argument).Writable :=
    ⟨name, kept_of_isQualified spelled.argument.isQualified⟩
  have object : (attr "xsi" "type" "object").Writable := ⟨xsiType, by decide⟩
  have nonempty : h.proxy ≠ "" := by
    intro empty
    have isProxy := spelled.isProxy
    rw [empty] at isProxy
    exact absurd isProxy (by decide)
  have inner : (element "argument" [attr "" "name" h.argument, attr "xsi" "type" "object"]
      [.text h.proxy]).Plain :=
    .content ⟨argument, by simp [ofArgument, object], by simp [attr]⟩ (kept_of_isQualified spelled.proxy) nonempty
  refine .elements ⟨type, by simp [ofClass], by simp⟩ fun child mem => ?_
  obtain rfl := List.mem_singleton.1 mem
  refine .elements ⟨arguments, by simp, by simp⟩ fun child mem => ?_
  obtain rfl := List.mem_singleton.1 mem
  exact inner

/-- A document with the element passes the proxy. -/
theorem WellSpelled.passes (spelled : h.WellSpelled) {doc : List Xml.Node} (mem : h.toNode.laidOut 0 ∈ doc) :
    ⟨h.className, h.argument⟩ ∈ proxiedInDocument doc := by
  rw [ProxyRequired.mem_proxiedInDocument]
  let arg : Xml.Element :=
    ⟨⟨"", "argument"⟩, [attr "" "name" h.argument, attr "xsi" "type" "object"], [.text h.proxy]⟩
  let list : Xml.Element := ⟨⟨"", "arguments"⟩, [], [Xml.breakNode 2, arg.toNode, Xml.breakNode 1]⟩
  let entry : Xml.Element :=
    ⟨⟨"", "type"⟩, [attr "" "name" h.className], [Xml.breakNode 1, list.toNode, Xml.breakNode 0]⟩
  have laidOut : h.toNode.laidOut 0 = entry.toNode := rfl
  have className : entry.attrD "name" "" = h.className := rfl
  have text : arg.text = h.proxy := by simp [arg, Xml.Element.text, Xml.Element.leadingText]
  refine ⟨entry, list, arg, .here (laidOut ▸ mem), rfl, ?_, by simp [entry], rfl, by simp [list], rfl, rfl, ?_⟩
  · rw [className, spelled.className.dropStart]
  · rw [text, ClassName.trim_of_isQualified spelled.proxy]
    exact spelled.isProxy

/-! The text of a hint -/

theorem text_of_noFile (noFile : h.configFile = "") : h.text.toList = h.toNode.document := by
  simp [text, noFile]

/-- What follows the path of the file in the text. -/
def behindPath (h : Hint) : List Char := " -->\n".toList ++ h.toNode.document

theorem text_of_file (file : h.configFile ≠ "") : h.text.toList =
    '<' :: '!' :: '-' :: '-' :: (' ' :: h.configFile.toList ++ h.behindPath) := by
  rw [text, if_neg file]
  simp only [String.toList_append, String.toList_ofList, List.append_assoc]
  rfl

/-- What stands in the document of a hint behind the comment. -/
def body (h : Hint) : List Xml.Node := [h.toNode.laidOut 0, .text "\n"]

/-- What follows the path ends the comment and is the element. -/
theorem WellSpelled.yields_behindPath (spelled : h.WellSpelled) (plain : ¬Text.contains h.configFile "--") :
    Xml.Yields ('<' :: '!' :: '-' :: '-' :: (' ' :: h.configFile.toList ++ h.behindPath))
      [.comment, Xml.breakNode 0] h.toNode.document := by
  have free : ¬['-', '-'] <:+: ' ' :: h.configFile.toList := by
    rw [← List.nil_append (' ' :: h.configFile.toList), Chars.infix_append_cons_iff (by decide)]
    rintro (none | inPath)
    · exact absurd (List.infix_nil.1 none) (by simp)
    · exact plain (Chars.contains_iff_isInfix.2 inPath)
  have comment := Xml.Yields.comment
    (Chars.cut_append_cons (show ' ' ∉ ['-', '-'] by decide) free ('>' :: '\n' :: h.toNode.document))
  obtain ⟨cs, starts⟩ := spelled.plain.starts 0
  have document : h.toNode.document = '<' :: (cs ++ ['\n']) := by rw [Xml.Node.document, starts]; rfl
  have lineBreak := Xml.Yields.lineBreak 0 (cs ++ ['\n'])
  rw [← document] at lineBreak
  exact comment.trans lineBreak

/-- A comment that ends where it is meant to is followed by the element. -/
theorem WellSpelled.parse?_text (spelled : h.WellSpelled) (plain : ¬Text.contains h.configFile "--") :
    ∃ lead, Xml.parse? h.text.toList = some (lead ++ h.body) := by
  have read : Xml.parse? h.toNode.document = some h.body := Xml.parse?_document spelled.plain
  by_cases noFile : h.configFile = ""
  · exact ⟨[], by rw [text_of_noFile noFile, read]; rfl⟩
  · refine ⟨[.comment, Xml.breakNode 0], ?_⟩
    rw [text_of_file noFile, (spelled.yields_behindPath plain).parse?_eq, read, Option.map_some]

/-- Where the path of the file has two hyphens, the comment ends there or is broken. -/
theorem parse?_text_of_cut {before after : String} (found : Text.cut "--" h.configFile = some (before, after)) :
    Xml.parse? h.text.toList =
      if Text.startsWith after ">" then
        (Xml.parse? (after.toList.tail ++ h.behindPath)).map (.comment :: ·)
      else none := by
  obtain ⟨⟨front, rest⟩, inPath, eq⟩ := Option.map_eq_some_iff.1 found
  obtain ⟨_, rfl⟩ := Prod.mk.inj eq
  have file : h.configFile ≠ "" := by
    intro noFile
    rw [noFile] at inPath
    exact absurd inPath (by simp [Chars.cut])
  have behindBlank : Chars.cut ['-', '-'] (' ' :: h.configFile.toList) = some (' ' :: front, rest) := by
    have inPath : Chars.cut ['-', '-'] h.configFile.toList = some (front, rest) := inPath
    simp [Chars.cut, inPath]
  have inText := Chars.cut_append behindBlank h.behindPath
  have broken (notEnd : (rest ++ h.behindPath).head? ≠ some '>') : Xml.parse? h.text.toList = none := by
    rw [text_of_file file]
    exact Xml.parse?_eq_none (by simp) (Xml.next?_brokenComment inText notEnd)
  cases rest with
  | nil => exact broken (show some ' ' ≠ some '>' by decide)
  | cons c rest =>
    by_cases ends : c = '>'
    · subst ends
      rw [text_of_file file, (Xml.Yields.comment inText).parse?_eq]
      simp [Text.startsWith]
    · rw [broken (by simpa using ends), if_neg]
      simpa [Text.startsWith] using Ne.symm ends

/-- In a configuration file, the text passes the proxy for the argument, and the rule does not report the
argument of the class again. -/
structure Silences (h : Hint) (text : String) : Prop where
  passes : ∃ doc, Xml.parse? text.toList = some doc ∧ ⟨h.className, h.argument⟩ ∈ proxiedInDocument doc
  silent : ∀ (host : Host) (files : Classification), ∀ path ∈ files.files FileType.di,
    host.readDocument path = .ok text → ∀ o ∈ find host files, ∀ other, ofMetadata? o.metadata = some other →
      ¬(other.className = h.className ∧ other.argument = h.argument)

/-- A configuration file with the text counts for nothing. -/
structure Ignored (text : String) : Prop where
  unreadable : Xml.parse? text.toList = none
  passesNone : ∀ (host : Host) (path : String), host.readDocument path = .ok text → proxiedIn host path = []

theorem ignored_of_unreadable {text : String} (unreadable : Xml.parse? text.toList = none) : Ignored text := by
  refine ⟨unreadable, fun host path read => ?_⟩
  have none : document? host path = none := by rw [document?, read]; exact unreadable
  rw [ProxyRequired.proxiedIn_eq_document, none]
  rfl

/-! The hints of the rule -/

/-- The hint that the rule gives for a parameter. -/
def ofInjection (host : Host) (i : Injection) : Hint where
  className := i.className
  argument := i.param.name
  proxy := i.param.className ++ "\\Proxy"
  configFile := (Module.nearestConfig host i.path).getD ""

variable {host : Host} {i : Injection}

theorem text?_of_get? {metadata : Dict Json.Value} {key text : String}
    (found : metadata.get? key = some (.string text)) : text? metadata.entries key = some text := by
  have found : metadata.entries.lookup key = some (.string text) := found
  simp only [text?, valueOf?, found]

theorem get?_data (className : String) (param : Php.Param) (config : Option String) :
    let d := ProxyRequired.data className param config
    d.get? "class" = some (.string className) ∧ d.get? "argument" = some (.string param.name) ∧
      d.get? "proxy" = some (.string (param.className ++ "\\Proxy")) ∧
      d.get? "diFile" = some (.string (config.getD "")) := by
  simp [ProxyRequired.data, Dict.ofList, Dict.get?_insert, ProxyRequired.classKey, ProxyRequired.argumentKey,
    ProxyRequired.typeKey, ProxyRequired.proxyKey, ProxyRequired.configKey, ProxyRequired.areaKey]

theorem ofMetadata?_occurrence (named : i.className ≠ "") :
    ofMetadata? (i.occurrence host).metadata = some (ofInjection host i) := by
  have metadata : (i.occurrence host).metadata =
    (ProxyRequired.data i.className i.param (Module.nearestConfig host i.path)).entries := rfl
  obtain ⟨className, argument, proxy, configFile⟩ :=
    get?_data i.className i.param (Module.nearestConfig host i.path)
  rw [ofMetadata?, metadata, text?_of_get? className, text?_of_get? argument, text?_of_get? proxy,
    text?_of_get? configFile]
  simp [named, ofInjection]

/-- The name of an expensive type has but the characters of class names. -/
theorem isQualified_of_isExpensive {name : String} (h : ClassName.isExpensive name) :
    ∀ c ∈ name.toList, isQualified c := by
  have listed : ClassName.expensiveTypes.all fun full => full.toList.all isQualified := by decide +kernel
  have member : Text.dropStart "\\" name ∈ ClassName.expensiveTypes := by simpa [ClassName.isExpensive] using h
  have others := List.all_eq_true.1 (List.all_eq_true.1 listed _ member)
  rw [Text.dropStart] at others
  split at others
  next rest found =>
    rw [Chars.after?_eq_some.1 found]
    intro c mem
    rcases List.mem_append.1 mem with lead | inRest
    · obtain rfl := List.mem_singleton.1 lead
      decide
    · exact others c (by simpa using inRest)
  next => exact others

theorem wellSpelled_ofInjection {paths : List String} (mem : i ∈ ProxyRequired.injections host paths)
    (suspect : i.Suspect) : (ofInjection host i).WellSpelled := by
  obtain ⟨ofFile, inEach, inFile⟩ := List.mem_flatten.1 mem
  obtain ⟨turn, bound, rfl⟩ := List.mem_mapIdx.1 inEach
  generalize (loadAll host paths)[turn] = src at inFile
  rw [ProxyRequired.injectionsIn] at inFile
  split at inFile
  next ctor isCtor =>
    obtain ⟨p, isParam, rfl⟩ := List.mem_map.1 inFile
    have isClass : IsFull (Php.classNameOf src.text) := by
      have named := suspect.named
      cases first : Php.classOf src.text with
      | none => simp [Php.classNameOf, first] at named
      | some decl => exact Php.isFull_classNameOf first
    refine ⟨isClass, Php.isFull_paramName isCtor isParam, ?_, ?_⟩
    · intro c inProxy
      rw [ofInjection, String.toList_append] at inProxy
      rcases List.mem_append.1 inProxy with inType | inTail
      · exact isQualified_of_isExpensive suspect.expensive c inType
      · have all : "\\Proxy".toList.all isQualified := by decide
        exact List.all_eq_true.1 all c inTail
    · simp [Text.endsWith, ofInjection, List.isSuffixOf_iff_suffix]
  next => cases inFile

theorem silences_of_passes {text : String}
    (passes : ∃ doc, Xml.parse? text.toList = some doc ∧ ⟨h.className, h.argument⟩ ∈ proxiedInDocument doc) :
    h.Silences text := by
  refine ⟨passes, fun host files path mem read o found other isOther same => ?_⟩
  obtain ⟨doc, isDocument, inDocument⟩ := passes
  obtain ⟨i, _, suspect, noProxy, rfl⟩ := ProxyRequired.mem_find.1 found
  rw [ofMetadata?_occurrence suspect.named] at isOther
  obtain rfl := Option.some.inj isOther
  obtain ⟨className, argument⟩ : i.className = h.className ∧ i.param.name = h.argument := same
  apply noProxy
  rw [className, argument]
  exact ⟨path, mem, doc, by rw [document?, read]; exact isDocument,
    ProxyRequired.mem_proxiedInDocument.1 inDocument⟩

/-- **A hint silences its occurrence, unless the path in its comment has two hyphens.** Every occurrence of the
rule has a hint. As long as the path of the file has no two hyphens, a configuration file with the hint's text
is read, passes the proxy, and keeps the rule from reporting the argument of the class again. Otherwise the
comment ends at the first two hyphens if a closing bracket follows, and the rest of the path is read as text;
and if none follows, the text cannot be read, and the file counts for nothing. -/
theorem silences_unless_dashed (host : Host) (files : Classification) {o : Occurrence}
    (found : o ∈ find host files) :
    ∃ h, ofMetadata? o.metadata = some h ∧ hintText o.metadata = h.text ∧
      (¬Text.contains h.configFile "--" → h.Silences h.text) ∧
      ∀ before after, Text.cut "--" h.configFile = some (before, after) →
        (¬Text.startsWith after ">" → Ignored h.text) ∧
        (Text.startsWith after ">" → Xml.parse? h.text.toList =
          (Xml.parse? (after.toList.tail ++ h.behindPath)).map (.comment :: ·)) := by
  obtain ⟨i, isInjection, suspect, _, rfl⟩ := ProxyRequired.mem_find.1 found
  have made := @ofMetadata?_occurrence host i suspect.named
  have spelled := @wellSpelled_ofInjection host i _ isInjection suspect
  refine ⟨ofInjection host i, made, by rw [hintText, made]; rfl, fun plain => ?_, fun before after cut => ?_⟩
  · obtain ⟨lead, read⟩ := spelled.parse?_text plain
    exact silences_of_passes ⟨_, read, spelled.passes (List.mem_append_right lead List.mem_cons_self)⟩
  · have read := parse?_text_of_cut cut
    constructor
    · intro broken
      rw [if_neg broken] at read
      exact ignored_of_unreadable read
    · intro ends
      rw [if_pos ends] at read
      exact read

/-- A class that asks for a session, and a configuration with nothing in it. -/
def shopEntry : Entry :=
  .dir [("Cart.php", .text ProxyRequired.cartClass), ("etc", .dir [("di.xml", .text "")])]

/-- Two such shops. The name of the first has two hyphens. -/
def twoShops : List (String × Entry) := [("my--shop", shopEntry), ("shop", shopEntry)]

def twoShopsHost : Host where
  tree := .dir [("srv", .dir twoShops)]
  cwd := "/"
  env := {}

def twoShopsFiles : Classification where
  entries := [(FileType.php, ["/srv/my--shop/Cart.php", "/srv/shop/Cart.php"])]
  sorted := List.pairwise_singleton _ _

theorem injections_twoShops :
    ProxyRequired.injections twoShopsHost (twoShopsFiles.files FileType.php) =
      [ProxyRequired.cartInjection "/srv/my--shop/Cart.php", ProxyRequired.cartInjection "/srv/shop/Cart.php"] := by
  have placed : twoShopsHost.linkAt "/srv" = .ok (.dir twoShops) :=
    @Host.linkAt_names twoShopsHost ["srv"] twoShops rfl (by decide) (by decide) (by decide) (by decide)
  have proper : Entry.ProperIn twoShops := by
    simp only [twoShops, shopEntry, Entry.ProperIn, Entry.Proper, Entry.text]
    decide
  have dashed := @Host.readOrEmpty_below _ _ _ _ ["my--shop", "Cart.php"] placed proper rfl (by decide) (by decide)
  have plain := @Host.readOrEmpty_below _ _ _ _ ["shop", "Cart.php"] placed proper rfl (by decide) (by decide)
  have php : twoShopsFiles.files FileType.php =
      [Path.below "/srv" ["my--shop", "Cart.php"], Path.below "/srv" ["shop", "Cart.php"]] := rfl
  have loaded : loadAll twoShopsHost (twoShopsFiles.files FileType.php) =
      [⟨"/srv/my--shop/Cart.php", ProxyRequired.cartClass.toList⟩,
        ⟨"/srv/shop/Cart.php", ProxyRequired.cartClass.toList⟩] := by
    have some : ProxyRequired.cartClass ≠ "" := by decide
    rw [php, loadAll_cons, loadAll_cons, dashed, plain, if_neg some, if_neg some]
    rfl
  rw [ProxyRequired.injections, loaded, List.mapIdx_cons, List.mapIdx_singleton,
    ProxyRequired.injectionsIn_cart, ProxyRequired.injectionsIn_cart]
  rfl

theorem found_twoShops {i : Injection}
    (mem : i ∈ ProxyRequired.injections twoShopsHost (twoShopsFiles.files FileType.php)) (suspect : i.Suspect) :
    i.occurrence twoShopsHost ∈ find twoShopsHost twoShopsFiles := by
  refine ProxyRequired.mem_find.2 ⟨i, mem, suspect, ?_, rfl⟩
  rintro ⟨path, none, _⟩
  have noConfiguration : twoShopsFiles.files FileType.di = [] := rfl
  rw [noConfiguration] at none
  cases none

/-- What the hints of the two occurrences are made of. -/
theorem hint_twoShops :
    ofInjection twoShopsHost (ProxyRequired.cartInjection "/srv/my--shop/Cart.php") =
      ⟨"Acme\\Cart", "session", "Magento\\Customer\\Model\\Session\\Proxy", "/srv/my--shop/etc/di.xml"⟩ ∧
    ofInjection twoShopsHost (ProxyRequired.cartInjection "/srv/shop/Cart.php") =
      ⟨"Acme\\Cart", "session", "Magento\\Customer\\Model\\Session\\Proxy", "/srv/shop/etc/di.xml"⟩ := by
  have dashed : Module.nearestConfig twoShopsHost "/srv/my--shop/Cart.php" = some "/srv/my--shop/etc/di.xml" :=
    Module.nearestConfig_beside (by decide) (by decide +kernel)
      (@Host.isFileAt_names twoShopsHost ["srv", "my--shop", "etc", "di.xml"] [] rfl (by decide) (by decide)
        (by decide) (by decide))
  have plain : Module.nearestConfig twoShopsHost "/srv/shop/Cart.php" = some "/srv/shop/etc/di.xml" :=
    Module.nearestConfig_beside (by decide) (by decide +kernel)
      (@Host.isFileAt_names twoShopsHost ["srv", "shop", "etc", "di.xml"] [] rfl (by decide) (by decide)
        (by decide) (by decide))
  constructor
  · simp only [ofInjection, ProxyRequired.cartInjection, dashed]
    rfl
  · simp only [ofInjection, ProxyRequired.cartInjection, plain]
    rfl

/-- The hint for the plain shop silences its occurrence. The one for the other shop counts for nothing. -/
theorem silences_unless_dashed_twoShops :
    let dashed := (ProxyRequired.cartInjection "/srv/my--shop/Cart.php").occurrence twoShopsHost
    let plain := (ProxyRequired.cartInjection "/srv/shop/Cart.php").occurrence twoShopsHost
    dashed ∈ find twoShopsHost twoShopsFiles ∧ Ignored (hintText dashed.metadata) ∧
    plain ∈ find twoShopsHost twoShopsFiles ∧ ∃ h, ofMetadata? plain.metadata = some h ∧
      h.configFile = "/srv/shop/etc/di.xml" ∧ h.Silences (hintText plain.metadata) := by
  intro dashed plain
  obtain ⟨ofDashed, ofPlain⟩ := hint_twoShops
  have foundDashed : dashed ∈ find twoShopsHost twoShopsFiles :=
    found_twoShops (by simp [injections_twoShops]) (ProxyRequired.suspect_cart _)
  have foundPlain : plain ∈ find twoShopsHost twoShopsFiles :=
    found_twoShops (by simp [injections_twoShops]) (ProxyRequired.suspect_cart _)
  refine ⟨foundDashed, ?_, foundPlain, ?_⟩
  · obtain ⟨h, made, text, _, cut⟩ := silences_unless_dashed twoShopsHost twoShopsFiles foundDashed
    rw [ofMetadata?_occurrence (ProxyRequired.suspect_cart _).named, ofDashed] at made
    obtain rfl := Option.some.inj made
    rw [text]
    exact (cut "/srv/my" "shop/etc/di.xml" (by decide)).1 (by decide)
  · obtain ⟨h, made, text, silences, _⟩ := silences_unless_dashed twoShopsHost twoShopsFiles foundPlain
    refine ⟨h, made, ?_⟩
    rw [ofMetadata?_occurrence (ProxyRequired.suspect_cart _).named, ofPlain] at made
    obtain rfl := Option.some.inj made
    rw [text]
    exact ⟨rfl, silences (by decide)⟩

end Hint

end ShopLint
