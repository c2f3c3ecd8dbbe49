import ShopLint.Module
import ShopLint.Proofs.Path.Clean

/-!
The configuration nearest to a file. The search goes up from the directory of the file, and goes on above
a directory that has no configuration and is neither registered as a module, nor directly in `app/code`,
nor the top. So it stops below `app/code`, provided that it starts below it: from a file directly in
`app/code` it starts in that directory, and goes on above.
-/

namespace ShopLint.Module

open ShopLint.Path (IsProper below names above upward)

/-- The configuration of a directory. -/
def configIn (dir : String) : String := below dir ["etc", "di.xml"]

/-- The file that registers a directory as a module. -/
def registrationIn (dir : String) : String := below dir ["registration.php"]

/-- The directory stands in one called `code`, which stands in one called `app`. -/
def InAppCode (dir : String) : Prop := ∃ front name, names dir = front ++ ["app", "code", name]

/-- The search goes no further up than the directory. -/
def EndsAt (host : Host) (dir : String) : Prop :=
  host.existsAt (registrationIn dir) ∨ InAppCode dir ∨ dir = "/"

/-- The search goes on above the directory. -/
structure Passes (host : Host) (dir : String) : Prop where
  noConfig : ¬host.isFileAt (configIn dir)
  goesOn : ¬EndsAt host dir

/-- What the search asks of a directory in which it has found nothing: whether to end there. -/
def Stops (host : Host) (dir : String) : Prop :=
  host.existsAt (Path.join [dir, "registration.php"]) ∨ Path.dir dir = dir ∨ isAppCode (Path.dir dir)

/-- The search from a directory, with no bound to how far it goes up. -/
inductive Climbs (host : Host) : String → Option String → Prop
  | found {dir : String} (isFile : host.isFileAt (Path.join [dir, "etc", "di.xml"])) :
      Climbs host dir (some (Path.join [dir, "etc", "di.xml"]))
  | stop {dir : String} (noFile : ¬host.isFileAt (Path.join [dir, "etc", "di.xml"]))
      (last : Stops host dir) : Climbs host dir none
  | up {dir : String} {r : Option String} (noFile : ¬host.isFileAt (Path.join [dir, "etc", "di.xml"]))
      (goesOn : ¬Stops host dir) (rest : Climbs host (Path.dir dir) r) : Climbs host dir r

/-- A search that has come to a directory ends there, with the given outcome. -/
def Settles (host : Host) (r : Option String) (dir : String) : Prop :=
  host.isFileAt (configIn dir) ∧ r = some (configIn dir) ∨
    ¬host.isFileAt (configIn dir) ∧ EndsAt host dir ∧ r = none

/-- Of some directories in their order, the first that the search does not pass has the property. -/
def Reaches (host : Host) (p : String → Prop) (dirs : List String) : Prop :=
  ∃ nearer dir farther, dirs = nearer ++ dir :: farther ∧ p dir ∧ ∀ d ∈ nearer, Passes host d

section

variable {host : Host} {dir path : String} {ns : List String} {r r' : Option String}

theorem reaches_cons {p : String → Prop} {dirs : List String} :
    Reaches host p (dir :: dirs) ↔ p dir ∨ Passes host dir ∧ Reaches host p dirs := by
  constructor
  · rintro ⟨nearer, first, farther, eq, holds, passed⟩
    cases nearer with
    | nil =>
      obtain ⟨rfl, _⟩ := List.cons.inj eq
      exact .inl holds
    | cons d nearer =>
      obtain ⟨rfl, rest⟩ := List.cons.inj eq
      obtain ⟨passes, passed⟩ := List.forall_mem_cons.1 passed
      exact .inr ⟨passes, nearer, first, farther, rest, holds, passed⟩
  · rintro (holds | ⟨passes, nearer, first, farther, rfl, holds, passed⟩)
    · exact ⟨[], dir, dirs, rfl, holds, by simp⟩
    · exact ⟨dir :: nearer, first, farther, rfl, holds, List.forall_mem_cons.2 ⟨passes, passed⟩⟩

theorem Climbs.unique (h : Climbs host dir r) (h' : Climbs host dir r') : r = r' := by
  induction h with
  | found isFile =>
    cases h' with
    | found _ => rfl
    | stop noFile _ => exact absurd isFile noFile
    | up noFile _ _ => exact absurd isFile noFile
  | stop noFile last =>
    cases h' with
    | found isFile => exact absurd isFile noFile
    | stop _ _ => rfl
    | up _ goesOn _ => exact absurd last goesOn
  | up noFile goesOn _ ih =>
    cases h' with
    | found isFile => exact absurd isFile noFile
    | stop _ last => exact absurd last goesOn
    | up _ _ rest => exact ih rest

/-! One directory, given by its names -/

section

variable (proper : ∀ n ∈ ns, IsProper n)

include proper

theorem join_config : Path.join [below "/" ns, "etc", "di.xml"] = configIn (below "/" ns) := by
  rw [Path.join_below proper (by simp) (by decide), configIn, Path.below_below]

theorem join_registration :
    Path.join [below "/" ns, "registration.php"] = registrationIn (below "/" ns) := by
  rw [Path.join_below proper (by simp) (by decide), registrationIn, Path.below_below]

theorem isAppCode_below : isAppCode (below "/" ns) ↔ ∃ front, ns = front ++ ["app", "code"] := by
  simp only [isAppCode, Bool.and_eq_true, decide_eq_true_eq, Path.dir_below proper]
  constructor
  · rintro ⟨last, next⟩
    rcases List.eq_nil_or_concat' ns with rfl | ⟨upper, code, rfl⟩
    · exact absurd last (by decide)
    rcases List.eq_nil_or_concat' upper with rfl | ⟨front, app, rfl⟩
    · exact absurd next (by simp; decide)
    obtain ⟨upperProper, codeProper⟩ := List.forall_mem_append.1 proper
    obtain ⟨frontProper, appProper⟩ := List.forall_mem_append.1 upperProper
    rw [Path.base_concat upperProper (codeProper _ (by simp))] at last
    rw [List.dropLast_concat, Path.base_concat frontProper (appProper _ (by simp))] at next
    exact ⟨front, by simp [last, next]⟩
  · rintro ⟨front, rfl⟩
    have split : front ++ ["app", "code"] = front ++ ["app"] ++ ["code"] := by simp
    rw [split] at proper ⊢
    obtain ⟨upperProper, _⟩ := List.forall_mem_append.1 proper
    obtain ⟨frontProper, _⟩ := List.forall_mem_append.1 upperProper
    rw [List.dropLast_concat]
    exact ⟨Path.base_concat upperProper (by decide), Path.base_concat frontProper (by decide)⟩

theorem inAppCode_below : InAppCode (below "/" ns) ↔ isAppCode (Path.dir (below "/" ns)) := by
  have upper : ∀ n ∈ ns.dropLast, IsProper n := fun n mem => proper n (List.dropLast_subset ns mem)
  rw [Path.dir_below proper, isAppCode_below upper, InAppCode, Path.names_below proper]
  constructor
  · rintro ⟨front, name, rfl⟩
    exact ⟨front, by simp⟩
  · rintro ⟨front, eq⟩
    rcases List.eq_nil_or_concat' ns with rfl | ⟨upper, name, rfl⟩
    · simp at eq
    · rw [List.dropLast_concat] at eq
      exact ⟨front, name, by simp [eq]⟩

theorem dir_below_eq_iff : Path.dir (below "/" ns) = below "/" ns ↔ below "/" ns = "/" := by
  rw [Path.dir_below proper]
  constructor
  · intro same
    have upper : ∀ n ∈ ns.dropLast, IsProper n := fun n mem => proper n (List.dropLast_subset ns mem)
    have equal := congrArg names same
    rw [Path.names_below upper, Path.names_below proper] at equal
    have lengths := congrArg List.length equal
    rw [List.length_dropLast] at lengths
    obtain rfl : ns = [] := List.eq_nil_of_length_eq_zero (by omega)
    rfl
  · intro top
    have none := Path.names_below proper
    rw [top] at none
    obtain rfl : [] = ns := none
    rfl

theorem stops_below : Stops host (below "/" ns) ↔ EndsAt host (below "/" ns) := by
  rw [Stops, EndsAt, join_registration proper, dir_below_eq_iff proper, inAppCode_below proper]
  exact or_congr_right or_comm

/-- What the search does in one directory. -/
theorem climbs_below : Climbs host (below "/" ns) r ↔
    Settles host r (below "/" ns) ∨ Passes host (below "/" ns) ∧ Climbs host (below "/" ns.dropLast) r := by
  have config := join_config proper
  have ends := @stops_below host _ proper
  rw [← Path.dir_below proper]
  constructor
  · intro h
    cases h with
    | found isFile => exact .inl (.inl (config ▸ ⟨isFile, rfl⟩))
    | stop noFile last => exact .inl (.inr ⟨config ▸ noFile, ends.1 last, rfl⟩)
    | up noFile goesOn rest => exact .inr ⟨⟨config ▸ noFile, mt ends.2 goesOn⟩, rest⟩
  · rintro ((⟨isFile, rfl⟩ | ⟨noFile, last, rfl⟩) | ⟨⟨noFile, goesOn⟩, rest⟩)
    · rw [← config] at isFile ⊢
      exact .found isFile
    · rw [← config] at noFile
      exact .stop noFile (ends.2 last)
    · rw [← config] at noFile
      exact .up noFile (mt ends.1 goesOn) rest

/-! All the way up -/

/-- The search comes to an end, and a bound that the names do not reach leaves it as it is. -/
theorem climbs_nearestConfigFrom {depth : Nat} (bound : ns.length < depth) :
    Climbs host (below "/" ns) (nearestConfigFrom host depth (below "/" ns)) := by
  induction depth generalizing ns with
  | zero => exact absurd bound (Nat.not_lt_zero _)
  | succ depth ih =>
    have upper : ∀ n ∈ ns.dropLast, IsProper n := fun n mem => proper n (List.dropLast_subset ns mem)
    rw [nearestConfigFrom]
    split
    next isFile => exact .found isFile
    next noFile =>
      split
      next registered => exact .stop noFile (.inl registered)
      next unregistered =>
        split
        next last => exact .stop noFile (.inr (by simpa using last))
        next inner =>
          simp only [Bool.or_eq_true, decide_eq_true_eq, not_or] at inner
          refine .up noFile (by simp [Stops, unregistered, inner]) ?_
          have lower : ns ≠ [] := by
            rintro rfl
            exact inner.1 (by decide)
          have shorter : ns.dropLast.length < depth := by
            have := List.length_pos_of_ne_nil lower
            rw [List.length_dropLast]
            omega
          rw [Path.dir_below proper]
          exact ih upper shorter

/-- The outcome of a search is decided by the first directory that it does not pass. -/
theorem climbs_iff : Climbs host (below "/" ns) r ↔
    Reaches host (Settles host r) (upward ns) := by
  induction ns using List.reverseRecOn with
  | nil =>
    have top : ¬Passes host "/" := fun passes => passes.goesOn (.inr (.inr rfl))
    rw [climbs_below proper, Path.upward_nil, reaches_cons]
    exact or_congr_right (iff_of_false (fun both => top both.1) (fun both => top both.1))
  | append_singleton ns name ih =>
    rw [climbs_below proper, Path.upward_concat, reaches_cons, List.dropLast_concat,
      ih (List.forall_mem_append.1 proper).1]

end

/-- The search from a path starts in its directory and comes to an end. -/
theorem climbs_dir_iff (absolute : Path.isAbsolute path) (cleaned : Path.clean path = path) :
    Climbs host (Path.dir path) r ↔ r = nearestConfig host path := by
  obtain ⟨ns, proper, rfl⟩ := Path.exists_names absolute cleaned
  have upper : ∀ n ∈ ns.dropLast, IsProper n := fun n mem => proper n (List.dropLast_subset ns mem)
  have bound : ns.dropLast.length < (below "/" ns).length + 1 := by
    have := Path.length_le_length_below proper
    rw [List.length_dropLast]
    omega
  have ends : Climbs host (Path.dir (below "/" ns)) (nearestConfig host (below "/" ns)) := by
    rw [nearestConfig, Path.dir_below proper]
    exact climbs_nearestConfigFrom upper bound
  exact ⟨fun h => h.unique ends, fun eq => eq ▸ ends⟩

theorem eq_nearestConfig_iff (absolute : Path.isAbsolute path) (cleaned : Path.clean path = path) :
    r = nearestConfig host path ↔ Reaches host (Settles host r) (above path) := by
  rw [← climbs_dir_iff absolute cleaned]
  obtain ⟨ns, proper, rfl⟩ := Path.exists_names absolute cleaned
  have upper : ∀ n ∈ ns.dropLast, IsProper n := fun n mem => proper n (List.dropLast_subset ns mem)
  rw [Path.dir_below proper, climbs_iff upper, above, Path.names_below proper]

theorem settles_some {config : String} :
    Settles host (some config) dir ↔ config = configIn dir ∧ host.isFileAt config := by
  constructor
  · rintro (⟨isFile, eq⟩ | ⟨_, _, none⟩)
    · obtain rfl := Option.some.inj eq
      exact ⟨rfl, isFile⟩
    · cases none
  · rintro ⟨rfl, isFile⟩
    exact .inl ⟨isFile, rfl⟩

theorem settles_none : Settles host none dir ↔ EndsAt host dir ∧ ¬host.isFileAt (configIn dir) := by
  constructor
  · rintro (⟨_, some⟩ | ⟨noFile, ends, _⟩)
    · cases some
    · exact ⟨ends, noFile⟩
  · rintro ⟨ends, noFile⟩
    exact .inr ⟨noFile, ends, rfl⟩

/-- A file whose own directory has a configuration gets that one. -/
theorem nearestConfig_beside (absolute : Path.isAbsolute path) (cleaned : Path.clean path = path)
    (isFile : host.isFileAt (configIn (below "/" (names path).dropLast))) :
    nearestConfig host path = some (configIn (below "/" (names path).dropLast)) := by
  obtain ⟨farther, chain⟩ : ∃ farther, above path = below "/" (names path).dropLast :: farther := by
    rw [above]
    rcases List.eq_nil_or_concat' (names path).dropLast with none | ⟨ns, n, split⟩
    · exact ⟨[], by rw [none]; rfl⟩
    · exact ⟨upward ns, by rw [split, Path.upward_concat]⟩
  symm
  rw [eq_nearestConfig_iff absolute cleaned, chain, reaches_cons]
  exact .inl (settles_some.2 ⟨rfl, isFile⟩)

/-- **The nearest configuration.** The search comes to an end. It finds the configuration of a directory
above the file just if none of the directories nearer to the file has one, is registered, or stands
directly in `app/code`. It finds nothing just if none has one up to the first directory that is registered,
stands directly in `app/code`, or is the top. -/
theorem nearestConfig_closest (host : Host) {path : String} (absolute : Path.isAbsolute path)
    (cleaned : Path.clean path = path) :
    (∀ r, Climbs host (Path.dir path) r ↔ r = nearestConfig host path) ∧
    (∀ config, nearestConfig host path = some config ↔
      ∃ nearer dir farther, above path = nearer ++ dir :: farther ∧
        (config = configIn dir ∧ host.isFileAt config) ∧ ∀ d ∈ nearer, Passes host d) ∧
    (nearestConfig host path = none ↔
      ∃ nearer last farther, above path = nearer ++ last :: farther ∧
        (EndsAt host last ∧ ¬host.isFileAt (configIn last)) ∧ ∀ d ∈ nearer, Passes host d) := by
  refine ⟨fun r => climbs_dir_iff absolute cleaned, fun config => ?_, ?_⟩
  · rw [eq_comm, eq_nearestConfig_iff absolute cleaned]
    simp only [Reaches, settles_some]
  · rw [eq_comm, eq_nearestConfig_iff absolute cleaned]
    simp only [Reaches, settles_none]

end

/-- A shop with a module, a configuration of its own and a file directly in `app/code`. -/
def shopTree : Entry := .dir [("srv", .dir [("app", .dir [
  ("code", .dir [
    ("Acme", .dir [("Model", .dir [("Cart.php", .text "")]), ("etc", .dir [("di.xml", .text "")])]),
    ("index.php", .text "")]),
  ("etc", .dir [("di.xml", .text "")])])])]

def shopHost : Host where
  tree := shopTree
  cwd := "/"
  env := {}

/-- The configuration of the module is found past the directory of the model, which has nothing. -/
theorem nearestConfig_closest_shop :
    Path.isAbsolute "/srv/app/code/Acme/Model/Cart.php" ∧
    Path.clean "/srv/app/code/Acme/Model/Cart.php" = "/srv/app/code/Acme/Model/Cart.php" ∧
    nearestConfig shopHost "/srv/app/code/Acme/Model/Cart.php" = some "/srv/app/code/Acme/etc/di.xml" := by
  have absolute : Path.isAbsolute "/srv/app/code/Acme/Model/Cart.php" := by decide
  have cleaned : Path.clean "/srv/app/code/Acme/Model/Cart.php" = "/srv/app/code/Acme/Model/Cart.php" := by
    decide +kernel
  have isFile : shopHost.isFileAt "/srv/app/code/Acme/etc/di.xml" :=
    @Host.isFileAt_names shopHost ["srv", "app", "code", "Acme", "etc", "di.xml"] _ rfl (by decide)
      (by decide) (by decide) (by decide)
  have noConfig : shopHost.existsAt (configIn "/srv/app/code/Acme/Model") = false :=
    @Host.existsAt_of_lacks shopHost ["srv", "app", "code", "Acme", "Model"] ["di.xml"] "etc" _ rfl
      (by decide) (by decide) (by decide)
  have unregistered : shopHost.existsAt (registrationIn "/srv/app/code/Acme/Model") = false :=
    @Host.existsAt_of_lacks shopHost ["srv", "app", "code", "Acme", "Model"] [] "registration.php" _ rfl
      (by decide) (by decide) (by decide)
  have passes : Passes shopHost "/srv/app/code/Acme/Model" := by
    refine ⟨fun found => ?_, ?_⟩
    · rw [Host.existsAt_of_isFileAt found] at noConfig
      cases noConfig
    · rintro (registered | ⟨front, name, eq⟩ | top)
      · rw [registered] at unregistered
        cases unregistered
      · rw [show names "/srv/app/code/Acme/Model" = ["srv", "app", "code", "Acme", "Model"] by decide] at eq
        have ends := congrArg List.reverse eq
        simp at ends
      · exact absurd top (by decide)
  refine ⟨absolute, cleaned, ((nearestConfig_closest shopHost absolute cleaned).2.1 _).2 ?_⟩
  exact ⟨["/srv/app/code/Acme/Model"], "/srv/app/code/Acme", ["/srv/app/code", "/srv/app", "/srv", "/"],
    by decide +kernel, ⟨by decide, isFile⟩, by simpa using passes⟩

/-! Inside `app/code` -/

section

variable {host : Host} {dir path : String} {r : Option String}

/-- The directory `code` of the directory `app` that stands at the given names. -/
def appCode (front : List String) : String := below "/" (front ++ ["app", "code"])

/-- From a directory that stands inside `app/code` the search stays inside it. -/
theorem reaches_inside {p : String → Prop} {front inner : List String} (nonempty : inner ≠ [])
    (proper : ∀ n ∈ front ++ ["app", "code"] ++ inner, IsProper n)
    (h : Reaches host p (upward (front ++ ["app", "code"] ++ inner))) :
    ∃ deeper, deeper ≠ [] ∧ deeper <+: inner ∧ p (below "/" (front ++ ["app", "code"] ++ deeper)) := by
  induction inner using List.reverseRecOn with
  | nil => exact absurd rfl nonempty
  | append_singleton inner name ih =>
    rw [← List.append_assoc, Path.upward_concat, reaches_cons] at h
    rcases h with here | ⟨passes, higher⟩
    · exact ⟨inner ++ [name], by simp, List.prefix_rfl, by rwa [← List.append_assoc]⟩
    by_cases direct : inner = []
    · -- the last directory inside `app/code` is never passed
      subst direct
      have within : InAppCode (below "/" (front ++ ["app", "code"] ++ [] ++ [name])) := by
        refine ⟨front, name, ?_⟩
        rw [Path.names_below (by simpa using proper)]
        simp
      exact absurd (.inr (.inl within)) passes.goesOn
    · rw [← List.append_assoc] at proper
      obtain ⟨deeper, some, isPrefix, holds⟩ := ih direct (List.forall_mem_append.1 proper).1 higher
      exact ⟨deeper, some, isPrefix.trans (List.prefix_append _ _), holds⟩

theorem exists_of_nearestConfig {config : String} (absolute : Path.isAbsolute path)
    (cleaned : Path.clean path = path) (h : nearestConfig host path = some config) :
    host.isFileAt config ∧ ∃ higher, higher <+: (names path).dropLast ∧ config = configIn (below "/" higher) := by
  obtain ⟨nearer, dir, farther, chain, settles, _⟩ := (eq_nearestConfig_iff absolute cleaned).1 h.symm
  obtain ⟨rfl, isFile⟩ := settles_some.1 settles
  have mem : dir ∈ upward (names path).dropLast := by
    rw [← above, chain]
    simp
  obtain ⟨higher, isPrefix, rfl⟩ := Path.mem_upward.1 mem
  exact ⟨isFile, higher, isPrefix, rfl⟩

section

variable {front : List String} (proper : ∀ n ∈ front ++ ["app", "code"], IsProper n)

include proper

theorem app_proper : ∀ n ∈ front ++ ["app"], IsProper n := by
  intro n mem
  apply proper
  rcases List.mem_append.1 mem with mem | mem
  · exact List.mem_append_left _ mem
  · exact List.mem_append_right _ (List.mem_cons.2 (.inl (List.mem_singleton.1 mem)))

theorem names_appCode : names (appCode front) = front ++ ["app", "code"] := Path.names_below proper

theorem above_appCode : above (appCode front) = upward (front ++ ["app"]) := by
  rw [above, names_appCode proper]
  simp

theorem eq_nearestConfig_appCode : r = nearestConfig host (appCode front) ↔
    Reaches host (Settles host r) (upward (front ++ ["app"])) := by
  rw [← above_appCode proper]
  exact eq_nearestConfig_iff (Path.isAbsolute_top_below proper) (Path.clean_below proper)

/-- The directory itself is passed like any other. -/
theorem passes_appCode (noConfig : ¬host.isFileAt (configIn (appCode front)))
    (unregistered : ¬host.existsAt (registrationIn (appCode front))) : Passes host (appCode front) := by
  refine ⟨noConfig, ?_⟩
  have named := names_appCode proper
  rintro (registered | ⟨front', name, eq⟩ | top)
  · exact unregistered registered
  · have ends := congrArg List.reverse (named.symm.trans eq)
    simp at ends
  · rw [top, show names "/" = [] by decide] at named
    have ends := congrArg List.reverse named
    simp at ends

/-- The configuration of a directory that is not as deep is not that of one in `app/code`. -/
theorem configIn_ne_inside {inner higher : List String} (inside : ∀ n ∈ inner, IsProper n)
    (outside : higher <+: front ++ ["app"]) :
    configIn (below "/" higher) ≠ configIn (below (appCode front) inner) := by
  intro same
  have ends : ∀ n ∈ ["etc", "di.xml"], IsProper n := by decide
  have higherProper : ∀ n ∈ higher, IsProper n := fun n mem => app_proper proper n (outside.subset mem)
  simp only [configIn, appCode, Path.below_below] at same
  have equal := Path.below_injective "/" (by simp) (by simp)
    (List.forall_mem_append.2 ⟨higherProper, ends⟩)
    (List.forall_mem_append.2 ⟨List.forall_mem_append.2 ⟨proper, inside⟩, ends⟩) same
  have lengths := congrArg List.length equal
  have short := outside.length_le
  simp only [List.length_append, List.length_cons, List.length_nil] at lengths short
  omega

/-- What is found above `app/code` is not in it. -/
theorem nearestConfig_appCode_outside {config : String}
    (found : nearestConfig host (appCode front) = some config) {inner : List String}
    (inside : ∀ n ∈ inner, IsProper n) : config ≠ configIn (below (appCode front) inner) := by
  obtain ⟨_, higher, isPrefix, rfl⟩ :=
    exists_of_nearestConfig (Path.isAbsolute_top_below proper) (Path.clean_below proper) found
  rw [Path.names_below proper] at isPrefix
  exact configIn_ne_inside proper inside (by simpa using isPrefix)

/-- Above `app/code` the search starts in `app`. -/
theorem nearestConfig_appCode_eq_app : nearestConfig host (appCode front) =
      some (configIn (below "/" (front ++ ["app"]))) ↔
    host.isFileAt (configIn (below "/" (front ++ ["app"]))) := by
  constructor
  · intro found
    exact (exists_of_nearestConfig (Path.isAbsolute_top_below proper) (Path.clean_below proper) found).1
  · intro isFile
    symm
    rw [eq_nearestConfig_appCode proper, Path.upward_concat, reaches_cons]
    exact .inl (settles_some.2 ⟨rfl, isFile⟩)

end

section

variable {front more : List String} (absolute : Path.isAbsolute path)
  (cleaned : Path.clean path = path) (inside : names path = front ++ ["app", "code"] ++ more)

include absolute cleaned inside

theorem proper_of_inside :
    (∀ n ∈ front ++ ["app", "code"], IsProper n) ∧ ∀ n ∈ more, IsProper n := by
  obtain ⟨ns, proper, rfl⟩ := Path.exists_names absolute cleaned
  rw [Path.names_below proper] at inside
  rw [inside] at proper
  exact List.forall_mem_append.1 proper

/-- A file that is not directly in `app/code` has its configuration further inside. -/
theorem nearestConfig_deep (deep : 2 ≤ more.length) {config : String}
    (found : nearestConfig host path = some config) :
    ∃ inner, inner ≠ [] ∧ inner <+: more.dropLast ∧ config = configIn (below (appCode front) inner) := by
  obtain ⟨codeProper, moreProper⟩ := proper_of_inside absolute cleaned inside
  have nonempty : more ≠ [] := List.ne_nil_of_length_pos (by omega)
  have between : more.dropLast ≠ [] := by
    apply List.ne_nil_of_length_pos
    rw [List.length_dropLast]
    omega
  have upper : ∀ n ∈ more.dropLast, IsProper n :=
    fun n mem => moreProper n (List.dropLast_subset more mem)
  have reached := (eq_nearestConfig_iff absolute cleaned).1 found.symm
  rw [above, inside, List.dropLast_append_of_ne_nil nonempty] at reached
  obtain ⟨inner, some, isPrefix, settles⟩ :=
    reaches_inside between (List.forall_mem_append.2 ⟨codeProper, upper⟩) reached
  refine ⟨inner, some, isPrefix, ?_⟩
  rw [appCode, Path.below_below]
  exact (settles_some.1 settles).1

/-- A file directly in `app/code` has the configuration of that directory, and without one, unless the
directory is registered as a module, that of `app` or higher. -/
theorem nearestConfig_direct (direct : more.length = 1) :
    nearestConfig host path =
      if host.isFileAt (configIn (appCode front)) then some (configIn (appCode front))
      else if host.existsAt (registrationIn (appCode front)) then none
      else nearestConfig host (appCode front) := by
  obtain ⟨codeProper, _⟩ := proper_of_inside absolute cleaned inside
  have chain : above path = appCode front :: upward (front ++ ["app"]) := by
    obtain ⟨file, rfl⟩ := List.length_eq_one_iff.1 direct
    have split : front ++ ["app", "code"] = front ++ ["app"] ++ ["code"] := by simp
    rw [above, inside, List.dropLast_concat, split, Path.upward_concat, appCode, split]
  symm
  rw [eq_nearestConfig_iff absolute cleaned, chain, reaches_cons]
  split_ifs with isFile registered
  · exact .inl (settles_some.2 ⟨rfl, isFile⟩)
  · exact .inl (settles_none.2 ⟨.inl registered, isFile⟩)
  · exact .inr ⟨passes_appCode codeProper isFile registered, (eq_nearestConfig_appCode codeProper).1 rfl⟩

end

/-- **Where the search leaves `app/code`.** For a file in a directory of `app/code` it stays further inside.
For a file directly in `app/code` it leaves just if that directory has no configuration and is not
registered as a module, and there is something to be found above. So it comes to the configuration of `app`
just from a file directly in `app/code`, where that directory has neither. -/
theorem nearestConfig_leaves_appCode_iff (host : Host) {path : String} (absolute : Path.isAbsolute path)
    (cleaned : Path.clean path = path) {front more : List String}
    (inside : names path = front ++ ["app", "code"] ++ more) (nonempty : more ≠ []) :
    ((∃ config, nearestConfig host path = some config ∧
        ∀ inner, (∀ n ∈ inner, IsProper n) → config ≠ configIn (below (appCode front) inner)) ↔
      more.length = 1 ∧ ¬host.isFileAt (configIn (appCode front)) ∧
        ¬host.existsAt (registrationIn (appCode front)) ∧ nearestConfig host (appCode front) ≠ none) ∧
    (more.length ≠ 1 → ∀ config, nearestConfig host path = some config →
      ∃ inner, inner ≠ [] ∧ inner <+: more.dropLast ∧ config = configIn (below (appCode front) inner)) ∧
    (nearestConfig host path = some (configIn (below "/" (front ++ ["app"]))) ↔
      more.length = 1 ∧ ¬host.isFileAt (configIn (appCode front)) ∧
        ¬host.existsAt (registrationIn (appCode front)) ∧
        host.isFileAt (configIn (below "/" (front ++ ["app"])))) := by
  obtain ⟨codeProper, moreProper⟩ := proper_of_inside absolute cleaned inside
  have inhabited := List.length_pos_of_ne_nil nonempty
  have innerProper {inner : List String} (isPrefix : inner <+: more.dropLast) :
      ∀ n ∈ inner, IsProper n :=
    fun n mem => moreProper n (List.dropLast_subset more (isPrefix.subset mem))
  by_cases direct : more.length = 1
  · rw [nearestConfig_direct absolute cleaned inside direct]
    refine ⟨?_, fun deep => absurd direct deep, ?_⟩
    · split_ifs with isFile registered
      · refine iff_of_false ?_ fun h => h.2.1 isFile
        rintro ⟨config, found, outside⟩
        exact outside [] (by simp) (Option.some.inj found).symm
      · simp [registered]
      · constructor
        · rintro ⟨config, found, _⟩
          exact ⟨direct, isFile, registered, by simp [found]⟩
        · rintro ⟨_, _, _, some⟩
          obtain ⟨config, found⟩ := Option.ne_none_iff_exists'.1 some
          exact ⟨config, found, fun inner inside => nearestConfig_appCode_outside codeProper found inside⟩
    · split_ifs with isFile registered
      · refine iff_of_false ?_ fun h => h.2.1 isFile
        intro found
        have apart := @configIn_ne_inside front codeProper [] _ (by simp) List.prefix_rfl
        exact apart (Option.some.inj found).symm
      · simp [registered]
      · simp [direct, isFile, registered, nearestConfig_appCode_eq_app codeProper]
  · have stays (config : String) (found : nearestConfig host path = some config) :=
      nearestConfig_deep absolute cleaned inside (by omega) found
    refine ⟨?_, fun _ => stays, ?_⟩
    · refine iff_of_false ?_ fun h => direct h.1
      rintro ⟨config, found, outside⟩
      obtain ⟨inner, _, isPrefix, eq⟩ := stays config found
      exact outside inner (innerProper isPrefix) eq
    · refine iff_of_false ?_ fun h => direct h.1
      intro found
      obtain ⟨inner, _, isPrefix, eq⟩ := stays _ found
      exact configIn_ne_inside codeProper (innerProper isPrefix) List.prefix_rfl eq

end

/-- From a file directly in `app/code` the configuration of the shop is found. -/
theorem nearestConfig_leaves_appCode_iff_shop :
    Path.isAbsolute "/srv/app/code/index.php" ∧
    Path.clean "/srv/app/code/index.php" = "/srv/app/code/index.php" ∧
    names "/srv/app/code/index.php" = ["srv"] ++ ["app", "code"] ++ ["index.php"] ∧
    nearestConfig shopHost "/srv/app/code/index.php" = some "/srv/app/etc/di.xml" := by
  have absolute : Path.isAbsolute "/srv/app/code/index.php" := by decide
  have cleaned : Path.clean "/srv/app/code/index.php" = "/srv/app/code/index.php" := by decide +kernel
  have inside : names "/srv/app/code/index.php" = ["srv"] ++ ["app", "code"] ++ ["index.php"] := by decide
  have isFile : shopHost.isFileAt "/srv/app/etc/di.xml" :=
    @Host.isFileAt_names shopHost ["srv", "app", "etc", "di.xml"] _ rfl (by decide) (by decide)
      (by decide) (by decide)
  have noConfig : shopHost.existsAt (configIn (appCode ["srv"])) = false :=
    @Host.existsAt_of_lacks shopHost ["srv", "app", "code"] ["di.xml"] "etc" _ rfl (by decide)
      (by decide) (by decide)
  have unregistered : shopHost.existsAt (registrationIn (appCode ["srv"])) = false :=
    @Host.existsAt_of_lacks shopHost ["srv", "app", "code"] [] "registration.php" _ rfl (by decide)
      (by decide) (by decide)
  obtain ⟨_, _, ofApp⟩ :=
    nearestConfig_leaves_appCode_iff shopHost absolute cleaned inside (by decide)
  refine ⟨absolute, cleaned, inside, ofApp.2 ⟨rfl, fun found => ?_, by simp [unregistered], isFile⟩⟩
  rw [Host.existsAt_of_isFileAt found] at noConfig
  cases noConfig

end ShopLint.Module
