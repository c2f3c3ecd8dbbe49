import ShopLint.Proofs.Dict
import ShopLint.Proofs.Placement
import ShopLint.Proofs.Reordered
import ShopLint.Proofs.Xml.Descent
import ShopLint.Rule.ProxyRequired

/-!
What the rule about proxies reports: the parameters of the project's own constructors that ask for a
session and have a proxy in no configuration file. The configuration files count as a set, and only those
that hold a document. The more of them there are, the less is reported. What a parameter asks for may
depend on the order in which imports are gone through; where it does not, runs can be compared.
-/

namespace ShopLint.ProxyRequired

/-- The document that a file holds; none when it cannot be read or is broken. -/
def document? (host : Host) (path : String) : Option (List Xml.Node) :=
  match host.readDocument path with
  | .ok content => Xml.parse? content.toList
  | .error _ => none

/-- A document passes a proxy for an argument of a class: somewhere in it there is an entry for the class,
with or without the leading backslash, and in the entry's list an argument of that name whose text, but for
white space around it, ends as the names of proxies do. -/
structure Configures (doc : List Xml.Node) (className argument : String) (entry list arg : Xml.Element) :
    Prop where
  stands : Xml.Holds doc entry
  isEntry : entry.name.key = "type"
  forClass : Text.dropStart "\\" (entry.attrD "name" "") = className
  inEntry : list.toNode ∈ entry.children
  isList : list.name.key = "arguments"
  inList : arg.toNode ∈ list.children
  isArgument : arg.name.key = "argument"
  named : arg.attrD "name" "" = argument
  proxy : Text.endsWith (Text.trim arg.text) "\\Proxy"

/-- One of the files passes a proxy for the argument. -/
def HasProxy (host : Host) (paths : List String) (className argument : String) : Prop :=
  ∃ path ∈ paths, ∃ doc, document? host path = some doc ∧
    ∃ entry list arg, Configures doc className argument entry list arg

/-- A constructor parameter of a class. -/
structure Injection where
  path : String
  className : String
  param : Php.Param

/-- The parameters of the constructor that a file has, in their order, as the rule sees them when it
comes to the file at some turn. -/
def injectionsIn (host : Host) (turn : Nat) (src : SourceFile) : List Injection :=
  match Php.constructorOf (fun place => host.order (.parameter id turn place)) src.text with
  | some ctor => ctor.params.map fun p => ⟨src.path, Php.classNameOf src.text, p⟩
  | none => []

/-- The constructor parameters of all files, file by file. -/
def injections (host : Host) (paths : List String) : List Injection :=
  ((loadAll host paths).mapIdx (injectionsIn host)).flatten

/-- A class of the project's own asks for a session. -/
structure Injection.Suspect (i : Injection) : Prop where
  named : i.className ≠ ""
  notFramework : ¬ClassName.isFramework i.className
  notThirdParty : ¬ClassName.isThirdParty i.className
  expensive : ClassName.isExpensive i.param.className

section

variable {host : Host} {paths more : List String} {doc : List Xml.Node} {className argument : String}

theorem mem_proxiedInDocument : ⟨className, argument⟩ ∈ proxiedInDocument doc ↔
    ∃ entry list arg, Configures doc className argument entry list arg := by
  simp only [proxiedInDocument, List.mem_flatMap, List.mem_map, List.mem_filter,
    Xml.mem_elementsNamed, Xml.mem_grandchildren, Proxied.mk.injEq]
  constructor
  · rintro ⟨entry, ⟨stands, isEntry⟩, arg, ⟨⟨list, inEntry, isList, inList, isArgument⟩, proxy⟩, forClass, named⟩
    exact ⟨entry, list, arg, stands, isEntry, forClass, inEntry, isList, inList, isArgument, named, proxy⟩
  · rintro ⟨entry, list, arg, c⟩
    exact ⟨entry, ⟨c.stands, c.isEntry⟩, arg,
      ⟨⟨list, c.inEntry, c.isList, c.inList, c.isArgument⟩, c.proxy⟩, c.forClass, c.named⟩

theorem proxiedIn_eq_document (host : Host) (path : String) :
    proxiedIn host path = ((document? host path).map proxiedInDocument).getD [] := by
  rw [proxiedIn, document?]
  cases host.readDocument path with
  | error _ => rfl
  | ok content =>
    dsimp only
    cases Xml.parse? content.toList <;> rfl

theorem mem_proxiedIn {p : Proxied} {path : String} :
    p ∈ proxiedIn host path ↔ ∃ doc, document? host path = some doc ∧ p ∈ proxiedInDocument doc := by
  rw [proxiedIn_eq_document]
  cases document? host path <;> simp

theorem mem_flatMap_proxiedIn :
    ⟨className, argument⟩ ∈ paths.flatMap (proxiedIn host) ↔ HasProxy host paths className argument := by
  simp only [List.mem_flatMap, mem_proxiedIn, mem_proxiedInDocument, HasProxy]

instance : Decidable (HasProxy host paths className argument) :=
  decidable_of_iff _ mem_flatMap_proxiedIn

instance (i : Injection) : Decidable i.Suspect :=
  decidable_of_iff (i.className ≠ "" ∧ ¬ClassName.isFramework i.className ∧
      ¬ClassName.isThirdParty i.className ∧ ClassName.isExpensive i.param.className)
    ⟨fun ⟨named, notFramework, notThirdParty, expensive⟩ => ⟨named, notFramework, notThirdParty, expensive⟩,
      fun h => ⟨h.named, h.notFramework, h.notThirdParty, h.expensive⟩⟩

/-- Files that hold no document do not matter, and of the others neither the order nor the number of times. -/
theorem HasProxy.mono (h : HasProxy host paths className argument)
    (included : ∀ path ∈ paths, (document? host path).isSome → path ∈ more) :
    HasProxy host more className argument := by
  obtain ⟨path, mem, doc, isDocument, configured⟩ := h
  exact ⟨path, included path mem (by simp [isDocument]), doc, isDocument, configured⟩

/-- A type that names no class is none of the expensive ones. -/
theorem ne_empty_of_isExpensive {name : String} (h : ClassName.isExpensive name) : name ≠ "" := by
  rintro rfl
  exact absurd h (by decide)

/-- The parameters of one file that are reported. -/
theorem inspectFile_eq (host : Host) (paths : List String) (turn : Nat) (src : SourceFile) :
    inspectFile host (paths.flatMap (proxiedIn host)) turn src =
      ((injectionsIn host turn src).filter fun i =>
          i.Suspect ∧ ¬HasProxy host paths i.className i.param.name).map
        fun i => report host i.path i.className i.param := by
  rw [inspectFile, injectionsIn]
  split
  next skipped =>
    have none : ∀ p, ¬(⟨src.path, Php.classNameOf src.text, p⟩ : Injection).Suspect := by
      intro p suspect
      simp [suspect.named, suspect.notFramework, suspect.notThirdParty] at skipped
    cases Php.constructorOf _ src.text <;> simp [List.filter_map, Function.comp_def, none]
  next taken =>
    simp only [Bool.or_eq_true, decide_eq_true_eq, not_or] at taken
    obtain ⟨⟨named, notThirdParty⟩, notFramework⟩ := taken
    cases Php.constructorOf _ src.text with
    | none => rfl
    | some ctor =>
      have same (p : Php.Param) :
          (⟨src.path, Php.classNameOf src.text, p⟩ : Injection).Suspect ↔
            p.className ≠ "" ∧ ClassName.isExpensive p.className :=
        ⟨fun h => ⟨ne_empty_of_isExpensive h.expensive, h.expensive⟩,
          fun h => ⟨named, notFramework, notThirdParty, h.2⟩⟩
      simp only [List.filter_map, List.map_map, Function.comp_def, same, mem_flatMap_proxiedIn,
        Bool.decide_and, decide_not, Bool.decide_eq_true, ne_eq]

end

/-- What the rule is to report: the sessions that have a proxy in no configuration file. -/
def unproxied (host : Host) (files : Classification) : List Injection :=
  (injections host (files.files FileType.php)).filter fun i =>
    i.Suspect ∧ ¬HasProxy host (files.files FileType.di) i.className i.param.name

def Injection.occurrence (host : Host) (i : Injection) : Occurrence :=
  report host i.path i.className i.param

/-- The path is that of a configuration file with a document in it. -/
structure IsConfiguration (host : Host) (files : Classification) (path : String) : Prop where
  collected : path ∈ files.files FileType.di
  isDocument : (document? host path).isSome

theorem find_eq_unproxied (host : Host) (files : Classification) :
    find host files = (unproxied host files).map (Injection.occurrence host) := by
  have each : inspectFile host ((files.files FileType.di).flatMap (proxiedIn host)) = fun turn src =>
      ((injectionsIn host turn src).filter fun i =>
          i.Suspect ∧ ¬HasProxy host (files.files FileType.di) i.className i.param.name).map
        (Injection.occurrence host) :=
    funext fun turn => funext (inspectFile_eq host _ turn)
  simp only [find, inspectEach, each, unproxied, injections, List.filter_flatten, List.map_flatten]
  congr 1
  refine List.ext_getElem? fun n => ?_
  simp only [List.getElem?_map, List.getElem?_mapIdx, Option.map_map, Function.comp_def]

theorem mem_find {host : Host} {files : Classification} {o : Occurrence} :
    o ∈ find host files ↔ ∃ i ∈ injections host (files.files FileType.php), i.Suspect ∧
      ¬HasProxy host (files.files FileType.di) i.className i.param.name ∧ i.occurrence host = o := by
  simp only [find_eq_unproxied, unproxied, List.mem_map, List.mem_filter, decide_eq_true_eq, and_assoc]

theorem HasProxy.carry {host : Host} {files files' : Classification} {className argument : String}
    (h : HasProxy host (files.files FileType.di) className argument)
    (included : ∀ path, IsConfiguration host files path → IsConfiguration host files' path) :
    HasProxy host (files'.files FileType.di) className argument :=
  h.mono fun path mem isDocument => (included path ⟨mem, isDocument⟩).collected

/-! Another run, which may go through imports in other orders -/

section Reordered

variable {host : Host} {files files' : Classification} {order : LookUp → Dict.Listing String}

theorem occurrence_reordered (i : Injection) :
    i.occurrence (host.reordered order) = i.occurrence host := by
  simp only [Injection.occurrence, report, Host.nearestConfig_reordered]

/-- The orders do not bear on the parameters of files that are settled. -/
theorem injections_reordered {paths : List String}
    (settled : order = host.order ∨ ∀ path ∈ paths, host.SettledParams path) :
    injections (host.reordered order) paths = injections host paths := by
  rcases settled with rfl | settled
  · rfl
  · simp only [injections, Host.loadAll_reordered]
    congr 1
    refine List.mapIdx_eq_mapIdx_iff.2 fun turn bound => ?_
    obtain ⟨path, mem, _, eq⟩ := mem_loadAll_iff.1 (List.getElem_mem bound)
    simp only [injectionsIn, eq]
    rw [Php.constructorOf_eq_of_settled (settled path mem) _
      fun place => host.order (.parameter id turn place)]

theorem unproxied_reordered
    (settled : order = host.order ∨ ∀ path ∈ files.files FileType.php, host.SettledParams path) :
    unproxied (host.reordered order) files = unproxied host files := by
  rw [unproxied, injections_reordered settled]
  rfl

theorem unproxied_antitone (php : files'.files FileType.php = files.files FileType.php)
    (included : ∀ path, IsConfiguration host files path → IsConfiguration host files' path) :
    (unproxied host files').Sublist (unproxied host files) := by
  rw [unproxied, unproxied, php]
  apply List.monotone_filter_right
  intro i kept
  simp only [decide_eq_true_eq] at kept ⊢
  exact ⟨kept.1, fun proxied => kept.2 (proxied.carry included)⟩

end Reordered

/-- **The rule reports the unproxied sessions.** The occurrences are those of the constructor parameters,
file by file and in their order, for which a class of the project's own asks for a session and no
configuration file passes a proxy. Two runs can be compared where no type of a parameter is ambiguous, or
where both go through imports in the same orders: it matters which configuration files hold a document,
and not in what order they come, how often, and among which broken ones; and where there are more of them,
the occurrences become fewer, and the rest keep their order. -/
theorem find_reports_unproxied (host : Host) (files : Classification) :
    find host files = (unproxied host files).map (Injection.occurrence host) ∧
    ∀ (files' : Classification) (order : LookUp → Dict.Listing String),
      files'.files FileType.php = files.files FileType.php →
      (order = host.order ∨ ∀ path ∈ files.files FileType.php, host.SettledParams path) →
      ((∀ path, IsConfiguration host files' path ↔ IsConfiguration host files path) →
        find (host.reordered order) files' = find host files) ∧
      ((∀ path, IsConfiguration host files path → IsConfiguration host files' path) →
        (find (host.reordered order) files').Sublist (find host files)) := by
  refine ⟨find_eq_unproxied host files, fun files' order php settled => ?_⟩
  have other : find (host.reordered order) files' =
      (unproxied host files').map (Injection.occurrence host) := by
    rw [find_eq_unproxied, unproxied_reordered (php ▸ settled)]
    exact List.map_congr_left fun i _ => occurrence_reordered i
  rw [other, find_eq_unproxied]
  refine ⟨fun same => ?_, fun included => (unproxied_antitone php included).map _⟩
  have fewer := unproxied_antitone php fun path => (same path).2
  have more := unproxied_antitone php.symm fun path => (same path).1
  rw [fewer.antisymm more]

def cartClass : String :=
  "<?php\nnamespace Acme;\nclass Cart \x7b\n" ++
    "  function __construct(\\Magento\\Customer\\Model\\Session $session) \x7b\x7d\n\x7d\n"

def cartConfig : String :=
  "<type name=\"\\Acme\\Cart\"><arguments><argument name=\"session\">" ++
    "Magento\\Customer\\Model\\Session\\Proxy</argument></arguments></type>"

/-- A class that asks for a session, a configuration that passes a proxy for it, and one that is cut off. -/
def cartTree : List (String × Entry) :=
  [("Cart.php", .text cartClass), ("cut_di.xml", .text "<type name=\"Acme\\Cart\"><arguments>"),
    ("di.xml", .text cartConfig)]

def cartHost : Host where
  tree := .dir [("srv", .dir cartTree)]
  cwd := "/"
  env := {}

def cartFiles (configurations : List String) : Classification :=
  .ofList [(FileType.di, configurations), (FileType.php, ["/srv/Cart.php"])]

theorem files_cart (configurations : List String) :
    (cartFiles configurations).files FileType.di = configurations ∧
      (cartFiles configurations).files FileType.php = ["/srv/Cart.php"] := by
  simp [cartFiles, Classification.files, Dict.ofList, Dict.get?_insert, FileType.di, FileType.php]

def cartParam : Php.Param where
  name := "session"
  type := "\\Magento\\Customer\\Model\\Session"
  className := "Magento\\Customer\\Model\\Session"
  nullable := false
  isOptional := false
  line := 4

/-- What the class asks for, where it stands at the path. -/
def cartInjection (path : String) : Injection := ⟨path, "Acme\\Cart", cartParam⟩

/-- There are no imports that could be ambiguous. -/
theorem settled_cart : Php.Settled cartClass.toList := Php.settled_of_distinct (by decide +kernel)

theorem injectionsIn_cart (host : Host) (turn : Nat) (path : String) :
    injectionsIn host turn ⟨path, cartClass.toList⟩ = [cartInjection path] := by
  have named : Php.classNameOf cartClass.toList = "Acme\\Cart" := by decide +kernel
  have params : (Php.constructorOf (fun _ => .sorted) cartClass.toList).map Php.Constructor.params =
      some [cartParam] := by
    decide +kernel
  rw [Php.constructorOf_eq_of_settled settled_cart.params _
    fun place => host.order (.parameter id turn place)] at params
  obtain ⟨ctor, isCtor, params⟩ := Option.map_eq_some_iff.1 params
  simp only [injectionsIn, isCtor, params, named, List.map_singleton]
  rfl

theorem suspect_cart (path : String) : (cartInjection path).Suspect where
  named := show "Acme\\Cart" ≠ "" by decide
  notFramework := show ¬ClassName.isFramework "Acme\\Cart" by decide
  notThirdParty := show ¬ClassName.isThirdParty "Acme\\Cart" by decide
  expensive := show ClassName.isExpensive "Magento\\Customer\\Model\\Session" by decide

theorem cart_placed : cartHost.linkAt "/srv" = .ok (.dir cartTree) ∧ Entry.ProperIn cartTree := by
  refine ⟨@Host.linkAt_names cartHost ["srv"] cartTree rfl (by decide) (by decide) (by decide) (by decide),
    ?_⟩
  simp only [cartTree, Entry.ProperIn, Entry.Proper, Entry.text]
  decide

theorem readOrEmpty_cart : cartHost.readOrEmpty "/srv/Cart.php" = cartClass :=
  @Host.readOrEmpty_below cartHost "/srv" cartClass cartTree ["Cart.php"] cart_placed.1 cart_placed.2 rfl
    (by decide) (by decide)

theorem injections_cart : injections cartHost ["/srv/Cart.php"] = [cartInjection "/srv/Cart.php"] := by
  have loaded : loadAll cartHost ["/srv/Cart.php"] = [⟨"/srv/Cart.php", cartClass.toList⟩] := by
    rw [loadAll_cons, readOrEmpty_cart, if_neg (by decide)]
    rfl
  rw [injections, loaded, List.mapIdx_singleton, List.flatten_singleton, injectionsIn_cart]

theorem document_cart : document? cartHost "/srv/cut_di.xml" = none ∧
    (document? cartHost "/srv/di.xml").map proxiedInDocument = some [⟨"Acme\\Cart", "session"⟩] := by
  obtain ⟨placed, proper⟩ := cart_placed
  have cut := @Host.readDocument_eq_below cartHost "/srv" _ cartTree ["cut_di.xml"] placed proper rfl
    (by decide) (by decide)
  have whole := @Host.readDocument_eq_below cartHost "/srv" cartConfig cartTree ["di.xml"] placed proper rfl
    (by decide) (by decide)
  have broken : (Xml.parse? "<type name=\"Acme\\Cart\"><arguments>".toList).isNone := by decide +kernel
  constructor
  · rw [show "/srv/cut_di.xml" = Path.below "/srv" ["cut_di.xml"] from rfl, document?, cut]
    exact Option.isNone_iff_eq_none.1 broken
  · rw [show "/srv/di.xml" = Path.below "/srv" ["di.xml"] from rfl, document?, whole]
    decide +kernel

theorem unproxied_cart (configurations : List String) : unproxied cartHost (cartFiles configurations) =
    if HasProxy cartHost configurations "Acme\\Cart" "session" then [] else [cartInjection "/srv/Cart.php"] := by
  rw [unproxied, (files_cart _).1, (files_cart _).2, injections_cart]
  split
  next proxy =>
    have dropped : ¬((cartInjection "/srv/Cart.php").Suspect ∧
        ¬HasProxy cartHost configurations "Acme\\Cart" "session") := fun h => h.2 proxy
    exact List.filter_cons_of_neg fun kept => dropped (of_decide_eq_true kept)
  next noProxy => exact List.filter_cons_of_pos (decide_eq_true ⟨suspect_cart _, noProxy⟩)

/-- The broken configuration passes no proxy. -/
theorem find_cart : find cartHost (cartFiles ["/srv/cut_di.xml"]) =
    [(cartInjection "/srv/Cart.php").occurrence cartHost] := by
  have noProxy : ¬HasProxy cartHost ["/srv/cut_di.xml"] "Acme\\Cart" "session" := by
    rintro ⟨path, mem, doc, found, _⟩
    rw [List.mem_singleton.1 mem, document_cart.1] at found
    cases found
  rw [find_eq_unproxied, unproxied_cart, if_neg noProxy, List.map_singleton]

theorem cart_settled (configurations : List String) :
    ∀ path ∈ (cartFiles configurations).files FileType.php, cartHost.Settled path := by
  intro path mem
  rw [(files_cart _).2] at mem
  rw [List.mem_singleton.1 mem, Host.Settled, readOrEmpty_cart]
  exact settled_cart

/-- With nothing but the broken configuration the session is reported, and with the whole one it is not,
alone or among broken ones, in whatever order imports are gone through. -/
theorem find_reports_unproxied_cart :
    (∀ path ∈ (cartFiles ["/srv/di.xml"]).files FileType.php, cartHost.SettledParams path) ∧
    find cartHost (cartFiles ["/srv/cut_di.xml"]) =
      [(cartInjection "/srv/Cart.php").occurrence cartHost] ∧
    find cartHost (cartFiles ["/srv/di.xml"]) = [] ∧
    (∀ order, find (cartHost.reordered order) (cartFiles ["/srv/di.xml", "/srv/cut_di.xml", "/srv/di.xml"]) =
      find cartHost (cartFiles ["/srv/di.xml"])) ∧
    ∀ order, (find (cartHost.reordered order) (cartFiles ["/srv/di.xml"])).Sublist
      (find cartHost (cartFiles ["/srv/cut_di.xml"])) := by
  obtain ⟨cut, whole⟩ := document_cart
  obtain ⟨doc, isDocument, inDocument⟩ := Option.map_eq_some_iff.1 whole
  have none : ∀ path ∈ ["/srv/cut_di.xml"], ¬(document? cartHost path).isSome := by simp [cut]
  have proxy : HasProxy cartHost ["/srv/di.xml"] "Acme\\Cart" "session" :=
    ⟨_, List.mem_singleton_self _, doc, isDocument, mem_proxiedInDocument.1 (by simp [inDocument])⟩
  have php (configurations others : List String) :
      (cartFiles configurations).files FileType.php = (cartFiles others).files FileType.php := by
    rw [(files_cart _).2, (files_cart _).2]
  have settled (configurations : List String) :
      ∀ path ∈ (cartFiles configurations).files FileType.php, cartHost.SettledParams path :=
    fun path mem => (cart_settled configurations path mem).params
  obtain ⟨_, fewer⟩ := find_reports_unproxied cartHost (cartFiles ["/srv/cut_di.xml"])
  obtain ⟨silenced, same⟩ := find_reports_unproxied cartHost (cartFiles ["/srv/di.xml"])
  refine ⟨settled _, find_cart, ?_,
    fun order => (same _ order (php _ _) (.inr (settled _))).1 fun path => ?_,
    fun order => (fewer _ order (php _ _) (.inr (settled _))).2 fun path h => ?_⟩
  · rw [silenced, unproxied_cart, if_pos proxy, List.map_nil]
  · constructor
    · rintro ⟨collected, isDocument⟩
      refine ⟨?_, isDocument⟩
      rw [(files_cart _).1] at collected ⊢
      simp only [List.mem_cons, List.not_mem_nil, or_false] at collected
      rcases collected with rfl | rfl | rfl
      · simp
      · simp [cut] at isDocument
      · simp
    · rintro ⟨collected, isDocument⟩
      rw [(files_cart _).1] at collected
      refine ⟨?_, isDocument⟩
      rw [(files_cart _).1]
      exact List.mem_cons.2 (.inl (List.mem_singleton.1 collected))
  · have collected := h.collected
    rw [(files_cart _).1] at collected
    exact absurd h.isDocument (none path collected)

end ShopLint.ProxyRequired
